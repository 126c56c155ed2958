/-!
Bytes as pairs of hexadecimal digits. Writing uses lower case; reading takes either case.
-/

namespace ScriptProbe.Text.Hex

/-- The lower-case digit of a value below 16. -/
def digit (n : Nat) : Char := Nat.digitChar n

def value? (c : Char) : Option Nat :=
  if '0' ≤ c ∧ c ≤ '9' then some (c.toNat - 48)
  else if 'a' ≤ c ∧ c ≤ 'f' then some (c.toNat - 87)
  else if 'A' ≤ c ∧ c ≤ 'F' then some (c.toNat - 55)
  else none

def ofByte (b : UInt8) : List Char := [digit (b.toNat / 16), digit (b.toNat % 16)]

def encode (bytes : List UInt8) : List Char := bytes.flatMap ofByte

/-- The digits as a string. -/
def text (bytes : List UInt8) : String := String.ofList (encode bytes)

/-- The prefix `0x` and the digits. -/
def prefixed (bytes : List UInt8) : String := String.ofList ('0' :: 'x' :: encode bytes)

/-- Reads pairs of digits after the bytes in `seen` (last first). -/
def decodeFrom? : List UInt8 → List Char → Option (List UInt8)
  | seen, [] => some seen.reverse
  | _, [_] => none
  | seen, h :: l :: rest =>
    match value? h, value? l with
    | some high, some low => decodeFrom? (UInt8.ofNat (16 * high + low) :: seen) rest
    | _, _ => none

/-- Refuses an odd number of digits and anything that is no digit. -/
def decode? (cs : List Char) : Option (List UInt8) := decodeFrom? [] cs

/-- The digits of a number, without leading zeros. -/
def ofNat (n : Nat) : List Char := Nat.toDigits 16 n

private theorem value?_digit_fin : ∀ n : Fin 16, value? (digit n) = some n.val := by decide

theorem value?_digit {n : Nat} (h : n < 16) : value? (digit n) = some n := value?_digit_fin ⟨n, h⟩

@[simp] theorem encode_nil : encode [] = [] := rfl

@[simp] theorem encode_cons (b : UInt8) (bytes : List UInt8) :
    encode (b :: bytes) = digit (b.toNat / 16) :: digit (b.toNat % 16) :: encode bytes := rfl

@[simp] theorem length_encode (bytes : List UInt8) : (encode bytes).length = 2 * bytes.length := by
  induction bytes with
  | nil => rfl
  | cons b bytes ih => simp [ih]; omega

theorem decodeFrom?_encode (seen bytes : List UInt8) :
    decodeFrom? seen (encode bytes) = some (seen.reverse ++ bytes) := by
  induction bytes generalizing seen with
  | nil => simp [decodeFrom?]
  | cons b bytes ih =>
    have hb : b.toNat < 256 := b.toNat_lt
    have hsum : 16 * (b.toNat / 16) + b.toNat % 16 = b.toNat := Nat.div_add_mod _ _
    simp only [encode_cons, decodeFrom?, value?_digit (show b.toNat / 16 < 16 by omega),
      value?_digit (show b.toNat % 16 < 16 by omega), ih, hsum, UInt8.ofNat_toNat]
    simp

@[simp] theorem decode?_encode (bytes : List UInt8) : decode? (encode bytes) = some bytes :=
  decodeFrom?_encode [] bytes

end ScriptProbe.Text.Hex
