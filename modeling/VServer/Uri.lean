/-
File URIs.

A path becomes `file://` and its bytes.  Letters, digits, the slash and the marks `. - _ ~` stand
for themselves, every other byte is escaped by a percent sign and two capital hexadecimal digits.
A relative path is taken from the working directory first.

The path is not cleaned up: dots and double slashes stay as they are.
-/
import VServer.Text.Utf8
import VServer.Path

namespace VServer

/-- Whether a byte stands for itself in a URI. -/
def isPlainByte (b : UInt8) : Bool :=
  let n := b.toNat
  (65 ≤ n && n ≤ 90) || (97 ≤ n && n ≤ 122) || (48 ≤ n && n ≤ 57) ||
    n == 47 || n == 46 || n == 45 || n == 95 || n == 126

/-- A hexadecimal digit, a capital letter above nine. -/
def hexDigit (n : Nat) : Char :=
  Char.ofNat (if n < 10 then 48 + n else 55 + n)

/-- A byte as it stands in a URI. -/
def escapeByte (b : UInt8) : List Char :=
  if isPlainByte b then [Char.ofNat b.toNat]
  else ['%', hexDigit (b.toNat / 16), hexDigit (b.toNat % 16)]

/-- The URI of a file, where relative paths start at the directory `cwd`. -/
def fileUri (cwd path : String) : String :=
  let absolute := if Path.isAbsolute path then path else Path.join cwd path
  "file://" ++ (if Path.isAbsolute absolute then "" else "/") ++
    String.ofList ((Text.encodeString absolute).flatMap escapeByte)

end VServer
