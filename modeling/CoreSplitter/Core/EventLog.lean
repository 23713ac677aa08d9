import Mathlib.Data.List.Sort
import Mathlib.Data.String.Basic
import CoreSplitter.Core.Handlers
import CoreSplitter.Lib.Ascii
import CoreSplitter.Protocol.Types

/-! The lines of the event log (`log_event`). `twoDecimals` is how `{:.2}` writes a number. -/

namespace CoreSplitter
open Bytes

/-! ### Decoded fields (`protocol/decode.rs`) -/

section
variable (twoDecimals : Float → Bytes)

namespace DecodedValue

def shown : DecodedValue → Bytes
  | string s => s
  | integer i => text (toString i)
  | float f => twoDecimals f
  | bool b => text (toString b)

def shouldSkip : DecodedValue → Bool
  | float f => f == 0.0
  | _ => false

end DecodedValue

def formatEntry (k : String) (v : DecodedValue) : Bytes := text k ++ text "=" ++ v.shown twoDecimals

/-- The entry of a name, unless it is skipped. -/
def entryOf (d : Decoded) (k : String) : Option Bytes :=
  (d.get k).bind fun v => if v.shouldSkip then none else some (formatEntry twoDecimals k v)

def formatDecoded (d : Decoded) : Bytes :=
  let keys := (d.map (·.1)).insertionSort (· ≤ ·)
  -- name first if present
  let parts := (entryOf twoDecimals d "name").toList ++ (keys.filter (· != "name")).filterMap (entryOf twoDecimals d)
  (text " | ").intercalate parts

/-! ### Lines (`core.rs`) -/

def sanitize (msg : Bytes) : Bytes := msg.filter printable

namespace Direction

def arrow : Direction → Bytes
  | toRadio => text "->"
  | fromRadio => text "<-"

def typeName : Direction → UInt8 → Bytes
  | toRadio => displayed commandNames "CMD_UNKNOWN"
  | fromRadio => displayed responseNames "RESP_UNKNOWN"

def decode : Direction → UInt8 → Bytes → Except Panic (Option Decoded)
  | toRadio => decodeCommandPayload
  | fromRadio => decodeResponsePayload

end Direction

def buildEventMsg (direction : Direction) (typeName : Bytes) (decoded : Option Decoded) (payload : Bytes)
    (level : LogLevel) : Bytes :=
  let msg := direction.arrow ++ text " " ++ typeName
  let formatted := (decoded.map (formatDecoded twoDecimals)).getD []
  let msg := if formatted.isEmpty then msg else msg ++ text ": " ++ formatted
  let msg := if level = .verbose then
      msg ++ text " [" ++ text (toString payload.length) ++ text " bytes]: " ++ hexEncode payload
    else msg
  sanitize msg

/-- The line that `log_event` writes, where it does not write JSON. -/
def eventLine (config : Config) (direction : Direction) (code : UInt8) (payload : Bytes) :
    Except Panic (Option Bytes) := do
  if config.eventLogLevel = .off then return none
  let decoded ← direction.decode code payload
  return buildEventMsg twoDecimals direction (direction.typeName code) decoded payload config.eventLogLevel

end
end CoreSplitter
