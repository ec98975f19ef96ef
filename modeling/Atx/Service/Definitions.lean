import Atx.Lib.UnitText
import Atx.Service.Launchd

/-!
# What the service managers read

Both definitions of the service name the same seven arguments. In the unit they are words in double
quotes in one line, and paths with line ends are refused. In the property list they are strings with
the five characters written by name. Whatever the paths are, the other lines of the unit and the
tags of the property list are always the same.

## Main definitions

* `Atx.serviceArguments` — the arguments the supervisor is started with
* `Atx.unitBefore`, `Atx.unitAfter`, `Atx.plistTags` — the lines and tags around them

## Main results

* `Atx.renderUnit_eq_ok` — the unit by its lines
* `Atx.service_definitions_quote_paths` — both managers read the arguments as they are
-/

namespace Atx

open Ascii Markup

/-- The arguments the supervisor is started with. -/
def serviceArguments (executable stateDirectory runtimeDirectory : String) : List String :=
  [executable, "__supervisor", "--state-dir", stateDirectory, "--runtime-dir", runtimeDirectory,
    "--service-managed"]

/-- The lines of the unit before the command line. -/
def unitBefore : List String :=
  ["[Unit]", "Description=ATX per-user command scheduler", "", "[Service]", "Type=simple"]

/-- The lines of the unit behind the command line. -/
def unitAfter : List String :=
  ["Restart=on-failure", "RestartSec=2s", "KillMode=process", "NoNewPrivileges=true",
    "PrivateTmp=true", "", "[Install]", "WantedBy=default.target", ""]

/-- The tags of the property list, the text before the first one counted as one. -/
def plistTags : List String :=
  ["", "?xml version=\"1.0\" encoding=\"UTF-8\"?",
    "!DOCTYPE plist PUBLIC \"-//Apple//DTD PLIST 1.0//EN\" " ++
      "\"http://www.apple.com/DTDs/PropertyList-1.0.dtd\"",
    "plist version=\"1.0\"", "dict", "key", "/key", "string", "/string", "key", "/key", "array",
    "string", "/string", "string", "/string", "string", "/string", "string", "/string", "string",
    "/string", "string", "/string", "string", "/string", "/array", "key", "/key", "true/", "key",
    "/key", "true/", "key", "/key", "string", "/string", "key", "/key", "string", "/string", "key",
    "/key", "string", "/string", "/dict", "/plist"]

/-! ### The unit -/

theorem systemdQuote_eq_ok {value text : String} (h : systemdQuote (bytes value) = .ok text) :
    text.toList = UnitText.quoted value.toList ∧
      ∀ c ∈ value.toList, UnitText.isLineEnd c = false := by
  unfold systemdQuote at h
  rw [fromUtf8_eq_some.mpr rfl] at h
  obtain ⟨value', hvalue, h⟩ := Outcome.bind_eq_ok.mp h
  cases hvalue
  by_cases hends : (value.toList.any fun c => c = '\n' || c = '\r' || c = '\x00') = true
  · rw [if_pos hends] at h
    cases h
  · rw [if_neg hends] at h
    refine ⟨?_, fun c hc => ?_⟩
    · rw [← Except.ok.inj h, String.toList_append, String.toList_append, String.toList_ofList,
        String.toList_ofList]
      simp only [UnitText.quoted, UnitText.rules, Escape.replaceAll, List.foldl_cons,
        List.foldl_nil, List.cons_append, List.nil_append]
    · exact (Bool.not_eq_true _).mp fun hbad => hends (List.any_eq_true.mpr ⟨c, hc, hbad⟩)

theorem systemdQuote_of_plain {value : String}
    (h : ∀ c ∈ value.toList, UnitText.isLineEnd c = false) :
    ∃ text, systemdQuote (bytes value) = .ok text := by
  have hends : ¬(value.toList.any fun c => c = '\n' || c = '\r' || c = '\x00') = true := by
    intro hany
    obtain ⟨c, hc, hbad⟩ := List.any_eq_true.mp hany
    exact Bool.false_ne_true ((h c hc).symm.trans hbad)
  unfold systemdQuote
  rw [fromUtf8_eq_some.mpr rfl]
  exact ⟨_, if_neg hends⟩

theorem mapM_systemdQuote {values texts : List String}
    (h : (values.map bytes).mapM systemdQuote = .ok texts) :
    texts.map String.toList = (values.map String.toList).map UnitText.quoted ∧
      ∀ word ∈ values.map String.toList, ∀ c ∈ word, UnitText.isLineEnd c = false := by
  induction values generalizing texts with
  | nil =>
    cases h
    exact ⟨rfl, by simp⟩
  | cons value values ih =>
    rw [List.map_cons, List.mapM_cons] at h
    obtain ⟨text, htext, h⟩ := Outcome.bind_eq_ok.mp h
    obtain ⟨rest, hrest, h⟩ := Outcome.bind_eq_ok.mp h
    cases h
    obtain ⟨hquoted, hplain⟩ := systemdQuote_eq_ok htext
    obtain ⟨hquoteds, hplains⟩ := ih hrest
    refine ⟨?_, ?_⟩
    · rw [List.map_cons, List.map_cons, List.map_cons, hquoted, hquoteds]
    · rw [List.map_cons, List.forall_mem_cons]
      exact ⟨hplain, hplains⟩

/-- **The unit by its lines**: the command line has the arguments in double quotes, and the other
lines are always the same. -/
theorem renderUnit_eq_ok {executable stateDirectory runtimeDirectory unit : String}
    (h : renderUnit (bytes executable) (bytes stateDirectory) (bytes runtimeDirectory) = .ok unit) :
    UnitText.lines unit.toList = unitBefore.map String.toList ++
      ("ExecStart=".toList ++ [' '].intercalate (((serviceArguments executable stateDirectory
        runtimeDirectory).map String.toList).map UnitText.quoted)) ::
        unitAfter.map String.toList := by
  obtain ⟨texts, htexts, h⟩ := Outcome.bind_eq_ok.mp h
  obtain ⟨hquoted, hplain⟩ := @mapM_systemdQuote
    (serviceArguments executable stateDirectory runtimeDirectory) texts htexts
  have hline : ∀ c ∈ "ExecStart=".toList ++ [' '].intercalate (((serviceArguments executable
      stateDirectory runtimeDirectory).map String.toList).map UnitText.quoted),
      UnitText.isLineEnd c = false := by
    have hkey : ∀ c ∈ "ExecStart=".toList, UnitText.isLineEnd c = false := by
      simp [UnitText.isLineEnd]
    intro c hc
    obtain hc | hc := List.mem_append.mp hc
    · exact hkey c hc
    · exact UnitText.not_isLineEnd_intercalate hplain c hc
  have hspace : " ".toList = [' '] := by simp
  rw [← Except.ok.inj h]
  simp only [String.toList_append, String.toList_intercalate, hquoted, hspace, List.append_assoc,
    -String.reduceToList, -String.reduceAppend]
  generalize [' '].intercalate (((serviceArguments executable stateDirectory
    runtimeDirectory).map String.toList).map UnitText.quoted) = arguments at hline ⊢
  have hfront : "[Unit]\nDescription=ATX per-user command scheduler\n\n".toList ++
      "[Service]\nType=simple\nExecStart=".toList =
      ['\n'].intercalate (unitBefore.map String.toList) ++ '\n' :: "ExecStart=".toList := by
    simp only [unitBefore, List.map_cons, List.map_nil, -String.reduceToList]
    repeat rw [String.toList_ofList]
    rfl
  have hback : "\nRestart=on-failure\nRestartSec=2s\n".toList ++
      ("KillMode=process\nNoNewPrivileges=true\nPrivateTmp=true\n\n".toList ++
        "[Install]\nWantedBy=default.target\n".toList) =
      '\n' :: ['\n'].intercalate (unitAfter.map String.toList) := by
    simp only [unitAfter, List.map_cons, List.map_nil, -String.reduceToList]
    repeat rw [String.toList_ofList]
    rfl
  have hbefore : UnitText.lines (['\n'].intercalate (unitBefore.map String.toList)) =
      unitBefore.map String.toList := by
    simp only [unitBefore, List.map_cons, List.map_nil, -String.reduceToList]
    repeat rw [String.toList_ofList]
    decide
  have hafter : UnitText.lines (['\n'].intercalate (unitAfter.map String.toList)) =
      unitAfter.map String.toList := by
    simp only [unitAfter, List.map_cons, List.map_nil, -String.reduceToList]
    repeat rw [String.toList_ofList]
    decide
  have hlines := UnitText.lines_between hline (['\n'].intercalate (unitBefore.map String.toList))
    (['\n'].intercalate (unitAfter.map String.toList))
  rw [hbefore, hafter, ← hback] at hlines
  rw [← List.append_assoc, hfront, ← hlines]
  simp only [List.append_assoc, List.cons_append]

/-- Paths without line ends can be written. -/
theorem exists_renderUnit {executable stateDirectory runtimeDirectory : String}
    (h : ∀ value ∈ serviceArguments executable stateDirectory runtimeDirectory,
      ∀ c ∈ value.toList, UnitText.isLineEnd c = false) :
    ∃ unit, renderUnit (bytes executable) (bytes stateDirectory) (bytes runtimeDirectory) =
      .ok unit := by
  have hall : ∀ values : List String,
      (∀ value ∈ values, ∀ c ∈ value.toList, UnitText.isLineEnd c = false) →
      ∃ texts, (values.map bytes).mapM systemdQuote = .ok texts := by
    intro values
    induction values with
    | nil => exact fun _ => ⟨[], rfl⟩
    | cons value values ih =>
      intro h
      obtain ⟨text, htext⟩ := systemdQuote_of_plain (h value List.mem_cons_self)
      obtain ⟨texts, htexts⟩ := ih fun v hv => h v (List.mem_cons_of_mem value hv)
      refine ⟨text :: texts, ?_⟩
      rw [List.map_cons, List.mapM_cons, htext, htexts]
      rfl
  obtain ⟨texts, htexts⟩ := hall _ h
  exact ⟨_, Outcome.bind_eq_ok.mpr ⟨texts, htexts, rfl⟩⟩

/-! ### The property list -/

/-- A path that is valid UTF-8 is written as it is. -/
theorem toStringLossy_bytes (value : String) : toStringLossy (bytes value) = value := by
  have hbytes : bytes value = Utf8.bytes value.toList := bytes_eq value
  rw [toStringLossy, hbytes, Lossy.decode_bytes, String.ofList_toList]

/-- The tags do not depend on the paths. -/
theorem tags_plistPieces (executable stateDirectory runtimeDirectory log : String) :
    (plistPieces (serviceArguments executable stateDirectory runtimeDirectory) log).map Piece.tag =
      plistTags.map String.toList := by
  simp only [plistPieces, startPieces, serviceArguments, argumentPieces, toPieces, plistTags,
    List.map_cons, List.map_nil, List.cons_append, List.nil_append,
    -String.reduceToList, -String.reduceAppend]

/-! ### Both -/

/-- **Both definitions quote the paths.** Whenever the unit is written, it has one command line, no
line goes on in the next one, the other lines are always the same, and the words of the command line
are the arguments. The property list always has the same tags, and its program arguments are the
same arguments. -/
theorem service_definitions_quote_paths (executable stateDirectory runtimeDirectory : String) :
    (∀ unit, renderUnit (bytes executable) (bytes stateDirectory) (bytes runtimeDirectory) =
        .ok unit → ∃ value : List Char,
      UnitText.lines unit.toList = unitBefore.map String.toList ++
        ("ExecStart=".toList ++ value) :: unitAfter.map String.toList ∧
      (UnitText.lines unit.toList).countP ("ExecStart=".toList.isPrefixOf ·) = 1 ∧
      (∀ line ∈ UnitText.lines unit.toList, line.getLast? ≠ some '\x5c') ∧
      UnitText.words value = some ((serviceArguments executable stateDirectory
        runtimeDirectory).map String.toList)) ∧
    ∃ ps, pieces (renderPlist (bytes executable) (bytes stateDirectory)
        (bytes runtimeDirectory)).toList = some ps ∧
      ps.map Piece.tag = plistTags.map String.toList ∧
      arrayOf "ProgramArguments".toList ps = some ((serviceArguments executable stateDirectory
        runtimeDirectory).map String.toList) := by
  refine ⟨fun unit hunit => ?_, ?_⟩
  · have hlines := renderUnit_eq_ok hunit
    have hcount : ∀ value : List Char, (unitBefore.map String.toList ++
        ("ExecStart=".toList ++ value) :: unitAfter.map String.toList).countP
          ("ExecStart=".toList.isPrefixOf ·) = 1 := by
      have hbefore : (unitBefore.map String.toList).countP ("ExecStart=".toList.isPrefixOf ·) = 0 :=
        by decide
      have hafter : (unitAfter.map String.toList).countP ("ExecStart=".toList.isPrefixOf ·) = 0 := by
        decide
      intro value
      rw [List.countP_append, hbefore, List.countP_cons_of_pos, hafter]
      exact List.isPrefixOf_iff_prefix.mpr (List.prefix_append _ _)
    refine ⟨_, hlines, hlines ▸ hcount _, ?_, UnitText.words_quoted _⟩
    have hbefore : ∀ line ∈ unitBefore.map String.toList, line.getLast? ≠ some '\x5c' := by
      decide
    have hafter : ∀ line ∈ unitAfter.map String.toList, line.getLast? ≠ some '\x5c' := by
      decide
    intro line hline
    rw [hlines, List.mem_append, List.mem_cons] at hline
    obtain hline | rfl | hline := hline
    · exact hbefore line hline
    · rw [UnitText.getLast?_intercalate (by simp [serviceArguments])]
      decide
    · exact hafter line hline
  · refine ⟨_, pieces_renderPlist _ _ _, ?_, ?_⟩
    · rw [toStringLossy_bytes, toStringLossy_bytes, toStringLossy_bytes]
      exact tags_plistPieces executable stateDirectory runtimeDirectory _
    · rw [arrayOf_plistPieces, toStringLossy_bytes, toStringLossy_bytes, toStringLossy_bytes]
      rfl

theorem service_definitions_quote_signs : ∃ unit value,
    renderUnit (bytes "/opt/a \x22$b%\x22") (bytes "/s") (bytes "/r") = .ok unit ∧
      UnitText.lines unit.toList = unitBefore.map String.toList ++
        ("ExecStart=".toList ++ value) :: unitAfter.map String.toList ∧
      UnitText.words value = some ((serviceArguments "/opt/a \x22$b%\x22" "/s" "/r").map
        String.toList) := by
  have hplain : ∀ value ∈ serviceArguments "/opt/a \x22$b%\x22" "/s" "/r",
      ∀ c ∈ value.toList, UnitText.isLineEnd c = false := by
    simp [serviceArguments, UnitText.isLineEnd]
  obtain ⟨unit, hunit⟩ := exists_renderUnit hplain
  obtain ⟨value, hlines, -, -, hwords⟩ :=
    (service_definitions_quote_paths "/opt/a \x22$b%\x22" "/s" "/r").1 unit hunit
  exact ⟨unit, value, hunit, hlines, hwords⟩

end Atx
