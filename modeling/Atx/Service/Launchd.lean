import Atx.Lib.Lossy
import Atx.Lib.Markup
import Atx.Service.Systemd

/-!
# The agent of launchd

The property list that describes the supervisor to the service manager of macOS. Paths that are not
valid UTF-8 are written with replacement characters. The list is a template with gaps for the
arguments and twice for the log. A reader comes to each gap outside of a tag, so what is written
there with the names of the five characters is text, whatever it is.

## Main definitions

* `Atx.renderPlist`, `Atx.xmlEscape` — the property list
* `Atx.plistPieces` — its tags, and the texts between them

## Main results

* `Atx.pieces_renderPlist` — the property list is read as these tags and texts
* `Atx.arrayOf_plistPieces` — reading the arguments
-/

namespace Atx

open Escape Markup

def label : String := "io.github.jsugg.atx"

def xmlEscape (value : String) : String :=
  String.ofList (replaceChar '\x27' "&apos;".toList (replaceChar '\x22' "&quot;".toList
    (replaceChar '>' "&gt;".toList (replaceChar '<' "&lt;".toList
      (replaceChar '&' "&amp;".toList value.toList)))))

def toStringLossy (path : OsPath) : String := String.ofList (Lossy.decode path)

/-- A path with a relative one behind it. -/
def joinPath (path name : OsPath) : OsPath :=
  match path.getLast? with
  | none => name
  | some b => if b = '/'.toUInt8 then path ++ name else path ++ '/'.toUInt8 :: name

/-! ### The template -/

def plistStart : String :=
  "<?xml version=\"1.0\" encoding=\"UTF-8\"?>\n"
    ++ "<!DOCTYPE plist PUBLIC \"-//Apple//DTD PLIST 1.0//EN\" "
    ++ "\"http://www.apple.com/DTDs/PropertyList-1.0.dtd\">\n"
    ++ "<plist version=\"1.0\">\n  <dict>\n"
    ++ "    <key>Label</key>\n    <string>" ++ label ++ "</string>\n"
    ++ "    <key>ProgramArguments</key>\n    <array>\n"

def plistArgument (argument : String) : String :=
  "      <string>" ++ xmlEscape argument ++ "</string>"

def plistBeforeLogs : String :=
  "\n    </array>\n"
    ++ "    <key>RunAtLoad</key>\n    <true/>\n    <key>KeepAlive</key>\n    <true/>\n"
    ++ "    <key>ProcessType</key>\n    <string>Background</string>\n"
    ++ "    <key>StandardOutPath</key>\n    <string>"

def plistBetweenLogs : String := "</string>\n    <key>StandardErrorPath</key>\n    <string>"

def plistEnd : String := "</string>\n  </dict>\n</plist>\n"

def renderPlist (executable stateDirectory runtimeDirectory : OsPath) : String :=
  let arguments := String.intercalate "\n" ([toStringLossy executable, "__supervisor",
    "--state-dir", toStringLossy stateDirectory, "--runtime-dir", toStringLossy runtimeDirectory,
    "--service-managed"].map plistArgument)
  let log := xmlEscape (toStringLossy (joinPath stateDirectory (Ascii.bytes "supervisor.log")))
  plistStart ++ arguments ++ plistBeforeLogs ++ log ++ plistBetweenLogs ++ log ++ plistEnd

/-! ### Tags and texts -/

/-- Tags with the texts behind them. -/
def toPieces (ps : List (String × String)) : List Piece :=
  ps.map fun p => ⟨p.1.toList, p.2.toList⟩

theorem mem_toPieces {tag text : String} {ps : List (String × String)} :
    (⟨tag.toList, text.toList⟩ : Piece) ∈ toPieces ps ↔ (tag, text) ∈ ps := by
  simp [toPieces, String.toList_inj]

theorem take_toPieces (n : ℕ) (ps : List (String × String)) :
    (toPieces ps).take n = toPieces (ps.take n) :=
  List.map_take.symm

/-- The tags and texts before the arguments, where the last tag is still to be read. -/
def startPieces : List Piece := toPieces
  [("", ""), ("?xml version=\"1.0\" encoding=\"UTF-8\"?", "\n"),
    ("!DOCTYPE plist PUBLIC \"-//Apple//DTD PLIST 1.0//EN\" " ++
      "\"http://www.apple.com/DTDs/PropertyList-1.0.dtd\"", "\n"),
    ("plist version=\"1.0\"", "\n  "), ("dict", "\n    "), ("key", "Label"), ("/key", "\n    "),
    ("string", label), ("/string", "\n    "), ("key", "ProgramArguments"), ("/key", "\n    ")]

/-- The tag before the arguments, and the arguments. -/
def argumentPieces (tag : String) : List String → List Piece
  | [] => []
  | argument :: arguments =>
    toPieces [(tag, "\n      "), ("string", xmlEscape argument)] ++
      argumentPieces "/string" arguments

/-- The tags and texts of the property list. -/
def plistPieces (arguments : List String) (log : String) : List Piece :=
  startPieces ++ argumentPieces "array" arguments ++ toPieces
    [("/string", "\n    "), ("/array", "\n    "), ("key", "RunAtLoad"), ("/key", "\n    "),
      ("true/", "\n    "), ("key", "KeepAlive"), ("/key", "\n    "), ("true/", "\n    "),
      ("key", "ProcessType"), ("/key", "\n    "), ("string", "Background"), ("/string", "\n    "),
      ("key", "StandardOutPath"), ("/key", "\n    "), ("string", xmlEscape log),
      ("/string", "\n    "), ("key", "StandardErrorPath"), ("/key", "\n    "),
      ("string", xmlEscape log), ("/string", "\n  "), ("/dict", "\n"), ("/plist", "\n")]

theorem toList_xmlEscape (value : String) :
    (xmlEscape value).toList = replaceAll rules value.toList := by
  rw [xmlEscape, String.toList_ofList]
  simp only [replaceAll, rules, List.foldl_cons, List.foldl_nil]

/-- An escaped text is read as a text. -/
theorem read_xmlEscape (value : String) (done : List Piece) (tag : List Char) :
    (Reader.outside done tag []).read (xmlEscape value).toList =
      some (.outside done tag (xmlEscape value).toList) := by
  have htext : '<' ∉ (xmlEscape value).toList := by
    rw [toList_xmlEscape]
    exact not_mem_replaceAll value.toList
  rw [Reader.read_text htext, List.nil_append]

/-! ### Arguments -/

theorem read_argument (argument : String) (done : List Piece) (tag before : List Char) :
    (Reader.outside done tag before).read (plistArgument argument).toList =
      some (.outside (done ++ [⟨tag, before ++ "      ".toList⟩,
        ⟨"string".toList, (xmlEscape argument).toList⟩]) "/string".toList []) := by
  have hopen : (Reader.outside [] [] []).read "      <string>".toList =
      some (.outside [⟨[], "      ".toList⟩] "string".toList []) := by rfl
  have hclose : (Reader.outside [] [] []).read "</string>".toList =
      some (.outside [⟨[], []⟩] "/string".toList []) := by rfl
  unfold plistArgument
  rw [String.toList_append, String.toList_append, Reader.read_append,
    Reader.read_append, Reader.read_part hopen, Option.bind_some, read_xmlEscape, Option.bind_some,
    Reader.read_part hclose, List.append_nil, List.append_assoc]
  rfl

theorem read_arguments (tag argument : String) (arguments : List String) (done : List Piece) :
    (Reader.outside done tag.toList ['\n']).read
        (String.intercalate "\n" ((argument :: arguments).map plistArgument)).toList =
      some (.outside (done ++ argumentPieces tag (argument :: arguments)) "/string".toList []) := by
  have hindent : ['\n'] ++ "      ".toList = "\n      ".toList := by simp
  rw [String.toList_intercalate]
  induction arguments generalizing tag argument done with
  | nil =>
    rw [List.map_singleton, List.map_singleton, List.intercalate_singleton, read_argument, hindent,
      argumentPieces, argumentPieces, List.append_nil]
    simp only [toPieces, List.map_cons, List.map_nil, -String.reduceToList]
  | cons next arguments ih =>
    have hbreak := @Reader.read_text "\n".toList (by simp) (done ++ [⟨tag.toList, "\n      ".toList⟩,
      ⟨"string".toList, (xmlEscape argument).toList⟩]) "/string".toList []
    have hnewline : [] ++ "\n".toList = ['\n'] := by simp
    rw [hnewline] at hbreak
    rw [List.map_cons, List.map_cons, List.map_cons, List.map_cons, List.intercalate_cons_cons,
      Reader.read_append, Reader.read_append, read_argument, hindent, Option.bind_some, hbreak,
      Option.bind_some, ← List.map_cons, ← List.map_cons, ih]
    simp only [argumentPieces, toPieces, List.map_cons, List.map_nil, List.append_assoc,
      -String.reduceToList]

/-- The arguments are read back. -/
theorem strings_argumentPieces (argument : String) (arguments : List String)
    (between after : List Char) (rest : List Piece) :
    strings (⟨"string".toList, (xmlEscape argument).toList⟩ :: (argumentPieces "/string" arguments ++
      ⟨"/string".toList, between⟩ :: ⟨"/array".toList, after⟩ :: rest)) =
        some ((argument :: arguments).map String.toList) := by
  have hread : ∀ argument : String, unescape (xmlEscape argument).toList = some argument.toList := by
    intro argument
    rw [toList_xmlEscape, unescape_replaceAll]
  induction arguments generalizing argument with
  | nil =>
    rw [argumentPieces, List.nil_append, strings_cons, strings_end, hread]
    simp only [Option.bind_some, Option.map_some, List.map_cons, List.map_nil]
  | cons next arguments ih =>
    rw [argumentPieces, toPieces, List.map_cons, List.map_cons, List.map_nil, List.append_assoc,
      List.cons_append, List.cons_append, List.nil_append, strings_cons, ih, hread]
    simp only [Option.bind_some, Option.map_some, List.map_cons]

/-! ### The property list -/

theorem read_plistStart : (Reader.outside [] [] []).read plistStart.toList =
    some (.outside startPieces "array".toList "\n".toList) := by
  unfold plistStart startPieces toPieces label
  simp only [List.map_cons, List.map_nil, String.toList_append, -String.reduceToList,
    -String.reduceAppend]
  repeat rw [String.toList_ofList]
  decide +kernel

theorem read_plistBeforeLogs : (Reader.outside [] [] []).read plistBeforeLogs.toList =
    some (.outside (⟨[], "\n    ".toList⟩ :: toPieces [("/array", "\n    "), ("key", "RunAtLoad"),
      ("/key", "\n    "), ("true/", "\n    "), ("key", "KeepAlive"), ("/key", "\n    "),
      ("true/", "\n    "), ("key", "ProcessType"), ("/key", "\n    "), ("string", "Background"),
      ("/string", "\n    "), ("key", "StandardOutPath"), ("/key", "\n    ")])
      "string".toList []) := by
  unfold plistBeforeLogs toPieces
  simp only [List.map_cons, List.map_nil, String.toList_append, -String.reduceToList,
    -String.reduceAppend]
  repeat rw [String.toList_ofList]
  decide +kernel

theorem read_plistBetweenLogs : (Reader.outside [] [] []).read plistBetweenLogs.toList =
    some (.outside (⟨[], []⟩ :: toPieces [("/string", "\n    "), ("key", "StandardErrorPath"),
      ("/key", "\n    ")]) "string".toList []) := by
  unfold plistBetweenLogs toPieces
  simp only [List.map_cons, List.map_nil, -String.reduceToList]
  repeat rw [String.toList_ofList]
  decide

theorem read_plistEnd : (Reader.outside [] [] []).read plistEnd.toList =
    some (.outside (⟨[], []⟩ :: toPieces [("/string", "\n  "), ("/dict", "\n")]) "/plist".toList
      "\n".toList) := by
  unfold plistEnd toPieces
  simp only [List.map_cons, List.map_nil, -String.reduceToList]
  repeat rw [String.toList_ofList]
  decide

/-- **The property list is read as these tags and texts**, whatever the paths are. -/
theorem pieces_renderPlist (executable stateDirectory runtimeDirectory : OsPath) :
    pieces (renderPlist executable stateDirectory runtimeDirectory).toList =
      some (plistPieces [toStringLossy executable, "__supervisor", "--state-dir",
        toStringLossy stateDirectory, "--runtime-dir", toStringLossy runtimeDirectory,
        "--service-managed"]
        (toStringLossy (joinPath stateDirectory (Ascii.bytes "supervisor.log")))) := by
  have hnewline : "\n".toList = ['\n'] := by simp
  unfold renderPlist pieces
  simp only [String.toList_append, Reader.read_append, -String.reduceToList, -String.reduceAppend]
  rw [read_plistStart, Option.bind_some, hnewline, read_arguments "array", Option.bind_some,
    Reader.read_part read_plistBeforeLogs, Option.bind_some, read_xmlEscape, Option.bind_some,
    Reader.read_part read_plistBetweenLogs, Option.bind_some, read_xmlEscape, Option.bind_some,
    Reader.read_part read_plistEnd, Option.bind_some, Reader.finish, plistPieces]
  simp only [toPieces, List.map_cons, List.map_nil, List.append_assoc, List.cons_append,
    List.nil_append, List.append_nil, -String.reduceToList, -String.reduceAppend]

/-- **The arguments of the property list are read back.** -/
theorem arrayOf_plistPieces (argument : String) (arguments : List String) (log : String) :
    arrayOf "ProgramArguments".toList (plistPieces (argument :: arguments) log) =
      some ((argument :: arguments).map String.toList) := by
  have hbefore : (⟨"key".toList, "ProgramArguments".toList⟩ : Piece) ∉ startPieces.take 9 := by
    rw [startPieces, take_toPieces, mem_toPieces]
    simp
  have hstart : startPieces = startPieces.take 9 ++
      [⟨"key".toList, "ProgramArguments".toList⟩, ⟨"/key".toList, "\n    ".toList⟩] := by
    rfl
  rw [plistPieces, hstart, List.append_assoc, List.append_assoc, arrayOf_append hbefore,
    argumentPieces, toPieces, toPieces]
  simp only [List.map_cons, List.map_nil, List.cons_append, List.nil_append]
  rw [arrayOf_cons, strings_argumentPieces]
  simp only [List.map_cons]

end Atx
