/-!
UTF-8. The reader is a machine that takes one byte at a time and reports, for every character and
for every ill-formed stretch, one item; lenient and strict decoding differ only in what they make
of an ill-formed item.
-/

namespace ScriptProbe.Text.Utf8

def encode (cs : List Char) : List UInt8 := cs.flatMap String.utf8EncodeChar

/-- Bytes that `cs` takes when encoded. -/
def size (cs : List Char) : Nat := cs.foldl (fun n c => n + c.utf8Size) 0

/-- What stands in for an ill-formed stretch. -/
def replacement : Char := Char.ofNat 0xFFFD

/-- Where the machine stands between two bytes. -/
inductive State where
  | start
  /-- Another `need + 1` bytes are due, the next of them from `low` to `high`. -/
  | inside (need low high acc : Nat)
  deriving DecidableEq, Repr

/-- The items completed by one byte, and the new state. An item is `none` for an ill-formed
stretch. -/
def lead (b : Nat) : List (Option Char) × State :=
  if b < 0x80 then ([some (Char.ofNat b)], .start)
  else if 0xC2 ≤ b ∧ b ≤ 0xDF then ([], .inside 0 0x80 0xBF (b - 0xC0))
  else if b = 0xE0 then ([], .inside 1 0xA0 0xBF 0)
  else if b = 0xED then ([], .inside 1 0x80 0x9F 13)
  else if 0xE1 ≤ b ∧ b ≤ 0xEF then ([], .inside 1 0x80 0xBF (b - 0xE0))
  else if b = 0xF0 then ([], .inside 2 0x90 0xBF 0)
  else if 0xF1 ≤ b ∧ b ≤ 0xF3 then ([], .inside 2 0x80 0xBF (b - 0xF0))
  else if b = 0xF4 then ([], .inside 2 0x80 0x8F 4)
  else ([none], .start)

/-- A byte that does not fit ends the stretch before it and is then read afresh. -/
def step (s : State) (b : UInt8) : List (Option Char) × State :=
  match s with
  | .start => lead b.toNat
  | .inside need low high acc =>
    if low ≤ b.toNat ∧ b.toNat ≤ high then
      let acc := 64 * acc + b.toNat % 64
      match need with
      | 0 => ([some (Char.ofNat acc)], .start)
      | need + 1 => ([], .inside need 0x80 0xBF acc)
    else
      let (items, s) := lead b.toNat
      (none :: items, s)

def finish : State → List (Option Char)
  | .start => []
  | .inside .. => [none]

/-- All items of a byte string, last first, from a state. -/
def run (s : State) (bytes : List UInt8) : List (Option Char) × State :=
  bytes.foldl (fun (seen, s) b =>
    let (items, s) := step s b
    (items.reverse ++ seen, s)) ([], s)

def items (bytes : List UInt8) : List (Option Char) :=
  let (seen, s) := run .start bytes
  seen.reverse ++ finish s

/-- Every ill-formed stretch becomes one replacement character. -/
def lossy (bytes : List UInt8) : List Char := (items bytes).map (·.getD replacement)

/-- Refuses any ill-formed stretch. -/
def decode? (bytes : List UInt8) : Option (List Char) :=
  let found := items bytes
  if found.all Option.isSome then some (found.map (·.getD replacement)) else none

end ScriptProbe.Text.Utf8
