import FormulaEngine.Text.Printable
/-!
# Quoted text

The written form of a text inside a message or a list: apostrophes around it, or quotation marks
if it holds an apostrophe and no quotation mark, with backslash escapes for the closing mark and
for whatever has no printed form.
-/
namespace FormulaEngine.Text

/-- The mark that opens and closes the written form of a text. -/
def quoteMark (s : List Char) : Char :=
  if s.contains '\x27' && !s.contains '"' then '"' else '\x27'

/-- A number in base sixteen with lower-case digits, padded with zeros to a width. -/
def hexadecimal (width n : Nat) : List Char :=
  let ds := Nat.toDigits 16 n
  List.replicate (width - ds.length) '0' ++ ds

/-- The written form of one character between two marks. -/
def escape (mark c : Char) : List Char :=
  if c = mark ∨ c = '\\' then ['\\', c]
  else if c = '\n' then ['\\', 'n']
  else if c = '\r' then ['\\', 'r']
  else if c = '\t' then ['\\', 't']
  else if isPrintable c then [c]
  else if c.toNat ≤ 0xff then '\\' :: 'x' :: hexadecimal 2 c.toNat
  else if c.toNat ≤ 0xffff then '\\' :: 'u' :: hexadecimal 4 c.toNat
  else '\\' :: 'U' :: hexadecimal 8 c.toNat

def quoted (s : String) : String :=
  let mark := quoteMark s.toList
  String.ofList (mark :: s.toList.flatMap (escape mark) ++ [mark])

end FormulaEngine.Text
