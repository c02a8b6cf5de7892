import Concordance.Json
import Concordance.Json.Display

/-!
# Writing JSON

The text of a value in ASCII, in the form that the reader accepts.
-/
namespace Concordance.Json

def unitEscape (n : Nat) : Text := '\\' :: 'u' :: hexDigits 4 n

def stringChar (c : CodePoint) : Text :=
  if c = '"' || c = '\\' then ['\\', c]
  else if c = '\n' then ['\\', 'n']
  else if c = '\r' then ['\\', 'r']
  else if c = '\t' then ['\\', 't']
  else if c = '\x08' then ['\\', 'b']
  else if c = '\x0C' then ['\\', 'f']
  else if 0x20 ≤ c.toNat && c.toNat ≤ 0x7E then [c]
  else if c.toNat < 0x10000 then unitEscape c.toNat
  else
    let offset := c.toNat - 0x10000
    unitEscape (0xD800 + offset / 0x400) ++ unitEscape (0xDC00 + offset % 0x400)

def renderString (t : Text) : Text := "\"".toText ++ t.flatMap stringChar ++ "\"".toText

def renderFloat (x : Float) : Text :=
  if x.isNaN then "NaN".toText
  else if x.isInf then if x < 0 then "-Infinity".toText else "Infinity".toText
  else shortestText x

mutual

def render : Json → Text
  | .null => "null".toText
  | .bool b => if b then "true".toText else "false".toText
  | .int n => decimal n
  | .float x => renderFloat x
  | .str t => renderString t
  | .arr items => "[".toText ++ joinWith ", ".toText (renderItems items) ++ "]".toText
  | .obj members => "\x7b".toText ++ joinWith ", ".toText (renderMembers members) ++ "\x7d".toText

def renderItems : List Json → List Text
  | [] => []
  | item :: rest => render item :: renderItems rest

def renderMembers : List (Text × Json) → List Text
  | [] => []
  | (name, value) :: rest =>
    (renderString name ++ ": ".toText ++ render value) :: renderMembers rest

end

/-- The text of a value that has its members on lines of their own. -/
def renderLines : Json → Text
  | .obj (m :: members) =>
    "\x7b\n  ".toText ++ joinWith ",\n  ".toText (renderMembers (m :: members)) ++ "\n\x7d".toText
  | value => value.render

end Concordance.Json
