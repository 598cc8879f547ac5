set_option autoImplicit false

/- Tables of the character database, version 15.0, held as text: entries are separated by spaces and
line ends, and their numbers are hexadecimal. A set lists ranges, `41-5A`, and single code points,
`AA`. A case table lists runs `first.last.stride.image`, where `image` belongs to `first`, and
exceptions `letter.image.image`, where one letter becomes several. -/
namespace Groundwork.Text

def hexDigitValue (c : Char) : Nat :=
  if c.isDigit then c.toNat - 48 else if c.isLower then c.toNat - 87 else c.toNat - 55

def hexValue (digits : List Char) : Nat :=
  digits.foldl (fun acc c => 16 * acc + hexDigitValue c) 0

/-- The runs of characters between spaces and line ends. -/
def tableEntries (text : String) : List (List Char) :=
  (text.toList.splitOnP fun c => c = ' ' || c = '\n').filter (!·.isEmpty)

/-- Inclusive ranges of code points. -/
structure CodePoints where
  ranges : List (Nat × Nat)

namespace CodePoints

def rangeOfEntry (entry : List Char) : Nat × Nat :=
  let low := hexValue (entry.takeWhile (· ≠ '-'))
  match entry.dropWhile (· ≠ '-') with
  | [] => (low, low)
  | _ :: high => (low, hexValue high)

def ofText (text : String) : CodePoints :=
  ⟨(tableEntries text).map rangeOfEntry⟩

def contains (s : CodePoints) (c : Char) : Bool :=
  s.ranges.any fun r => r.1 ≤ c.toNat && c.toNat ≤ r.2

end CodePoints

/-- Code points `first`, `first + stride`, … up to `last`; the first one maps to `image` and the
others move by the same distance. -/
structure CaseRun where
  first : Nat
  last : Nat
  stride : Nat
  image : Nat

structure CaseTable where
  runs : List CaseRun
  exceptions : List (Nat × List Char)

namespace CaseTable

def numbers (entry : List Char) : List Nat := (entry.splitOn '.').map hexValue

def ofText (runs exceptions : String) : CaseTable where
  runs := (tableEntries runs).filterMap fun entry =>
    match numbers entry with
    | [first, last, stride, image] => some ⟨first, last, stride, image⟩
    | _ => none
  exceptions := (tableEntries exceptions).filterMap fun entry =>
    match numbers entry with
    | letter :: images => some (letter, images.map Char.ofNat)
    | [] => none

/-- A letter outside the table is its own image. -/
def map (table : CaseTable) (c : Char) : List Char :=
  match table.exceptions.lookup c.toNat with
  | some images => images
  | none =>
    let n := c.toNat
    match table.runs.find? fun run =>
        run.first ≤ n && n ≤ run.last && (n - run.first) % run.stride == 0 with
    | some run => [Char.ofNat (run.image + (n - run.first))]
    | none => [c]

end CaseTable

/-- White space in the sense of the character property White_Space. -/
def blanks : CodePoints := .ofText
  "9-D 20 85 A0 1680 2000-200A 2028-2029 202F 205F 3000"

def isBlank (c : Char) : Bool := blanks.contains c

def trimStart (cs : List Char) : List Char := cs.dropWhile isBlank

def trimEnd (cs : List Char) : List Char := (cs.reverse.dropWhile isBlank).reverse

def trim (s : String) : String := String.ofList (trimEnd (trimStart s.toList))

def allBlank (s : String) : Bool := s.toList.all isBlank

end Groundwork.Text
