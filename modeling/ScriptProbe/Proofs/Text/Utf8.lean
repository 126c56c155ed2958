import ScriptProbe.Text.Utf8

/-! What is encoded is decoded again, and line feeds are neither made up nor taken in. -/
namespace ScriptProbe.Text.Utf8

variable {s : State} {c : Char} {cs : List Char} {bytes rest : List UInt8}

/-- The items of some bytes from a state on, first to last. -/
def itemsFrom : State → List UInt8 → List (Option Char)
  | s, [] => finish s
  | s, b :: bytes => (step s b).1 ++ itemsFrom (step s b).2 bytes

theorem run_from (seen : List (Option Char)) (s : State) (bytes : List UInt8) :
    let r := bytes.foldl (fun (seen, s) b =>
      let (items, s) := step s b
      (items.reverse ++ seen, s)) (seen, s)
    r.1.reverse ++ finish r.2 = seen.reverse ++ itemsFrom s bytes := by
  induction bytes generalizing seen s with
  | nil => rfl
  | cons b bytes ih =>
    obtain ⟨items, next, h⟩ : ∃ items next, step s b = (items, next) := ⟨_, _, rfl⟩
    simpa [itemsFrom, h] using ih (items.reverse ++ seen) next

theorem items_eq (bytes : List UInt8) : items bytes = itemsFrom .start bytes := by
  simpa [items, run] using run_from [] .start bytes

/-! ### Decoding what was encoded -/

theorem lead_ascii {b : Nat} (h : b < 0x80) : lead b = ([some (Char.ofNat b)], .start) := by
  simp [lead, h]

/-- A byte within the range that is due ends the character or leaves one byte less to come. -/
theorem step_inside {need low high acc : Nat} {b : UInt8} (h : low ≤ b.toNat ∧ b.toNat ≤ high) :
    step (.inside need low high acc) b =
      match need with
      | 0 => ([some (Char.ofNat (64 * acc + b.toNat % 64))], .start)
      | need + 1 => ([], .inside need 0x80 0xBF (64 * acc + b.toNat % 64)) := by
  cases need <;> simp [step, h]

theorem toNat_ofNat_of_lt {n : Nat} (h : n < 256) : (UInt8.ofNat n).toNat = n := by
  rw [UInt8.toNat_ofNat']
  omega

theorem itemsFrom_cons (s : State) (b : UInt8) :
    itemsFrom s (b :: bytes) = (step s b).1 ++ itemsFrom (step s b).2 bytes := rfl

theorem itemsFrom_tail {low high acc n : Nat} (h : low ≤ n ∧ n ≤ high) (hn : n < 256) :
    itemsFrom (.inside 0 low high acc) (UInt8.ofNat n :: rest) =
      some (Char.ofNat (64 * acc + n % 64)) :: itemsFrom .start rest := by
  have hb : low ≤ (UInt8.ofNat n).toNat ∧ (UInt8.ofNat n).toNat ≤ high := by
    rwa [toNat_ofNat_of_lt hn]
  rw [itemsFrom_cons, step_inside hb, toNat_ofNat_of_lt hn]
  rfl

theorem itemsFrom_more {need low high acc n : Nat} (h : low ≤ n ∧ n ≤ high) (hn : n < 256) :
    itemsFrom (.inside (need + 1) low high acc) (UInt8.ofNat n :: rest) =
      itemsFrom (.inside need 0x80 0xBF (64 * acc + n % 64)) rest := by
  have hb : low ≤ (UInt8.ofNat n).toNat ∧ (UInt8.ofNat n).toNat ≤ high := by
    rwa [toNat_ofNat_of_lt hn]
  rw [itemsFrom_cons, step_inside hb, toNat_ofNat_of_lt hn]
  rfl

theorem itemsFrom_lead {n : Nat} (hn : n < 256) {s : State} (h : lead n = ([], s)) :
    itemsFrom .start (UInt8.ofNat n :: rest) = itemsFrom s rest := by
  rw [itemsFrom_cons, step, toNat_ofNat_of_lt hn, h]
  rfl

/-- The first of three bytes, with the range that it leaves for the second. -/
theorem lead_three {k : Nat} (h : k < 16) :
    ∃ low high, lead (k + 0xE0) = ([], .inside 1 low high k) ∧
      low = (if k = 0 then 0xA0 else 0x80) ∧ high = if k = 13 then 0x9F else 0xBF := by
  by_cases h0 : k = 0
  · exact ⟨0xA0, 0xBF, by simp [h0, lead], by simp [h0], by simp [h0]⟩
  · by_cases h13 : k = 13
    · exact ⟨0x80, 0x9F, by simp [h13, lead], by simp [h13], by simp [h13]⟩
    · refine ⟨0x80, 0xBF, ?_, by simp [h0], by simp [h13]⟩
      simp only [lead]
      rw [if_neg (by omega), if_neg (by omega), if_neg (by omega), if_neg (by omega),
        if_pos (by omega)]
      simp

/-- The first of four bytes. -/
theorem lead_four {k : Nat} (h : k < 5) :
    ∃ low high, lead (k + 0xF0) = ([], .inside 2 low high k) ∧
      low = (if k = 0 then 0x90 else 0x80) ∧ high = if k = 4 then 0x8F else 0xBF := by
  have hk : k = 0 ∨ k = 1 ∨ k = 2 ∨ k = 3 ∨ k = 4 := by omega
  rcases hk with rfl | rfl | rfl | rfl | rfl <;> exact ⟨_, _, rfl, rfl, rfl⟩

theorem toNat_valid (c : Char) : c.toNat < 0xD800 ∨ (0xDFFF < c.toNat ∧ c.toNat < 0x110000) :=
  c.valid

theorem itemsFrom_two {v : Nat} (hlow : 0x7F < v) (hhigh : v ≤ 0x7FF) :
    itemsFrom .start (UInt8.ofNat (v / 64 % 0x20 + 0xC0) :: UInt8.ofNat (v % 0x40 + 0x80) :: rest) =
      some (Char.ofNat v) :: itemsFrom .start rest := by
  have hlead : lead (v / 64 % 0x20 + 0xC0) = ([], .inside 0 0x80 0xBF (v / 64)) := by
    simp only [lead]
    rw [if_neg (by omega), if_pos (by omega)]
    simp only [Prod.mk.injEq, State.inside.injEq, true_and]
    omega
  have hsum : 64 * (v / 64) + (v % 0x40 + 0x80) % 64 = v := by omega
  rw [itemsFrom_lead (by omega) hlead, itemsFrom_tail (by omega) (by omega), hsum]

theorem itemsFrom_three {v : Nat} (hlow : 0x7FF < v) (hhigh : v ≤ 0xFFFF)
    (hv : v < 0xD800 ∨ 0xDFFF < v) :
    itemsFrom .start (UInt8.ofNat (v / 4096 % 0x10 + 0xE0) :: UInt8.ofNat (v / 64 % 0x40 + 0x80) ::
        UInt8.ofNat (v % 0x40 + 0x80) :: rest) =
      some (Char.ofNat v) :: itemsFrom .start rest := by
  obtain ⟨low, high, hlead, hmin, hmax⟩ := lead_three (show v / 4096 % 0x10 < 16 by omega)
  have hsecond : low ≤ v / 64 % 0x40 + 0x80 ∧ v / 64 % 0x40 + 0x80 ≤ high := by
    constructor
    · split at hmin <;> omega
    · split at hmax <;> omega
  have hsum :
      64 * (64 * (v / 4096 % 0x10) + (v / 64 % 0x40 + 0x80) % 64) + (v % 0x40 + 0x80) % 64 = v := by
    omega
  rw [itemsFrom_lead (by omega) hlead, itemsFrom_more hsecond (by omega),
    itemsFrom_tail (by omega) (by omega), hsum]

theorem itemsFrom_four {v : Nat} (hlow : 0xFFFF < v) (hhigh : v < 0x110000) :
    itemsFrom .start
      (UInt8.ofNat (v / 262144 % 0x08 + 0xF0) :: UInt8.ofNat (v / 4096 % 0x40 + 0x80) ::
        UInt8.ofNat (v / 64 % 0x40 + 0x80) :: UInt8.ofNat (v % 0x40 + 0x80) :: rest) =
      some (Char.ofNat v) :: itemsFrom .start rest := by
  obtain ⟨low, high, hlead, hmin, hmax⟩ := lead_four (show v / 262144 % 0x08 < 5 by omega)
  have hsecond : low ≤ v / 4096 % 0x40 + 0x80 ∧ v / 4096 % 0x40 + 0x80 ≤ high := by
    constructor
    · split at hmin <;> omega
    · split at hmax <;> omega
  have hsum : 64 * (64 * (64 * (v / 262144 % 0x08) + (v / 4096 % 0x40 + 0x80) % 64) +
      (v / 64 % 0x40 + 0x80) % 64) + (v % 0x40 + 0x80) % 64 = v := by omega
  rw [itemsFrom_lead (by omega) hlead, itemsFrom_more hsecond (by omega),
    itemsFrom_more (by omega) (by omega), itemsFrom_tail (by omega) (by omega), hsum]

theorem itemsFrom_encodeChar (c : Char) (rest : List UInt8) :
    itemsFrom .start (String.utf8EncodeChar c ++ rest) = some c :: itemsFrom .start rest := by
  have hc := toNat_valid c
  have hself : Char.ofNat c.toNat = c := Char.ofNat_toNat c
  simp only [String.utf8EncodeChar, Char.toNat_val]
  generalize c.toNat = v at hc hself
  split
  · next h1 =>
    rw [List.cons_append, itemsFrom_cons, step, toNat_ofNat_of_lt (by omega), lead_ascii (by omega),
      hself]
    rfl
  split
  · next h1 h2 => exact hself ▸ itemsFrom_two (by omega) h2
  split
  · next h1 h2 h3 => exact hself ▸ itemsFrom_three (by omega) h3 (by omega)
  · next h1 h2 h3 => exact hself ▸ itemsFrom_four (by omega) (by omega)

theorem itemsFrom_encode (cs : List Char) (rest : List UInt8) :
    itemsFrom .start (encode cs ++ rest) = cs.map some ++ itemsFrom .start rest := by
  induction cs with
  | nil => rfl
  | cons c cs ih =>
    rw [encode, List.flatMap_cons, List.append_assoc, itemsFrom_encodeChar]
    exact congrArg (some c :: ·) ih

theorem items_encode (cs : List Char) : items (encode cs) = cs.map some := by
  simpa [items_eq, itemsFrom, finish] using itemsFrom_encode cs []

theorem lossy_encode (cs : List Char) : lossy (encode cs) = cs := by
  simp [lossy, items_encode, Function.comp_def]

theorem decode?_encode (cs : List Char) : decode? (encode cs) = some cs := by
  simp [decode?, items_encode, Function.comp_def]

theorem encode_injective {ds : List Char} (h : encode cs = encode ds) : cs = ds := by
  have hread := congrArg decode? h
  rwa [decode?_encode, decode?_encode, Option.some.injEq] at hread

/-! ### ASCII characters come of their own bytes only -/

/-- The character that is begun in a state lies beyond ASCII, however it goes on. -/
def Wide : State → Prop
  | .start => True
  | .inside 0 _ _ acc => 2 ≤ acc
  | .inside 1 low high acc => high ≤ 0xBF ∧ (1 ≤ acc ∨ 0xA0 ≤ low)
  | .inside (_ + 2) low high acc => high ≤ 0xBF ∧ (1 ≤ acc ∨ 0x90 ≤ low)

theorem wide_lead (b : Nat) : Wide (lead b).2 := by
  unfold lead
  repeat' split
  all_goals simp only [Wide]
  all_goals omega

theorem wide_step (h : Wide s) (b : UInt8) : Wide (step s b).2 := by
  cases s with
  | start => exact wide_lead _
  | inside need low high acc =>
    by_cases hb : low ≤ b.toNat ∧ b.toNat ≤ high
    · rw [step_inside hb]
      rcases need with _ | _ | need
      · trivial
      · simp only [Wide] at h ⊢
        omega
      · simp only [Wide] at h
        rcases need with _ | need <;> simp only [Wide] <;> omega
    · simp only [step, if_neg hb]
      exact wide_lead _

theorem toNat_of_ofNat_eq {n : Nat} (hc : c ≠ '\x00') (h : Char.ofNat n = c) : n = c.toNat := by
  by_cases hn : n.isValidChar
  · rw [← h, Char.ofNat, dif_pos hn]
    rfl
  · refine absurd ?_ hc
    rw [← h, Char.ofNat, dif_neg hn]
    rfl

theorem mem_lead {b : Nat} (hc : c ≠ '\x00') (h : some c ∈ (lead b).1) : b = c.toNat := by
  unfold lead at h
  split at h
  · exact toNat_of_ofNat_eq hc (by simpa [eq_comm] using h)
  · repeat' split at h
    all_goals simp at h

theorem mem_step (hs : Wide s) (hc : c ≠ '\x00') (hascii : c.toNat < 0x80) {b : UInt8}
    (h : some c ∈ (step s b).1) : b.toNat = c.toNat := by
  cases s with
  | start => exact mem_lead hc h
  | inside need low high acc =>
    by_cases hb : low ≤ b.toNat ∧ b.toNat ≤ high
    · rw [step_inside hb] at h
      cases need with
      | zero =>
        have hn := toNat_of_ofNat_eq hc (by simpa [eq_comm] using h)
        simp only [Wide] at hs
        omega
      | succ need => simp at h
    · simp only [step, if_neg hb, List.mem_cons, reduceCtorEq, false_or] at h
      exact mem_lead hc h

theorem mem_of_mem_itemsFrom (hs : Wide s) (hc : c ≠ '\x00') (hascii : c.toNat < 0x80)
    (h : some c ∈ itemsFrom s bytes) : UInt8.ofNat c.toNat ∈ bytes := by
  induction bytes generalizing s with
  | nil => cases s <;> simp [itemsFrom, finish] at h
  | cons b bytes ih =>
    rw [itemsFrom_cons, List.mem_append] at h
    rcases h with h | h
    · have hb := mem_step hs hc hascii h
      simp [← hb]
    · exact List.mem_cons_of_mem _ (ih (wide_step hs b) h)

theorem mem_of_mem_lossy (hc : c ≠ '\x00') (hascii : c.toNat < 0x80) (h : c ∈ lossy bytes) :
    UInt8.ofNat c.toNat ∈ bytes := by
  obtain ⟨item, hitem, rfl⟩ := List.mem_map.1 h
  cases item with
  | none => exact absurd hascii (by decide)
  | some d => exact mem_of_mem_itemsFrom (s := .start) trivial hc hascii (items_eq bytes ▸ hitem)

/-- A byte of ASCII stands in an encoded text only for its own character. -/
theorem mem_of_mem_encode {b : UInt8} (hb : b.toNat < 0x80) (h : b ∈ encode cs) :
    Char.ofNat b.toNat ∈ cs := by
  obtain ⟨c, hc, hbc⟩ := List.mem_flatMap.1 h
  suffices hself : Char.ofNat b.toNat = c from hself ▸ hc
  simp only [String.utf8EncodeChar, Char.toNat_val] at hbc
  have hself : Char.ofNat c.toNat = c := Char.ofNat_toNat c
  generalize c.toNat = v at hbc hself
  split at hbc
  · rw [List.mem_singleton.1 hbc, toNat_ofNat_of_lt (by omega), hself]
  -- All bytes of a longer character are beyond ASCII.
  split at hbc
  · simp only [List.mem_cons, List.not_mem_nil, or_false] at hbc
    rcases hbc with rfl | rfl <;> rw [UInt8.toNat_ofNat'] at hb <;> omega
  split at hbc
  · simp only [List.mem_cons, List.not_mem_nil, or_false] at hbc
    rcases hbc with rfl | rfl | rfl <;> rw [UInt8.toNat_ofNat'] at hb <;> omega
  · simp only [List.mem_cons, List.not_mem_nil, or_false] at hbc
    rcases hbc with rfl | rfl | rfl | rfl <;> rw [UInt8.toNat_ofNat'] at hb <;> omega

/-- The one byte of a NUL stands for nothing else. -/
theorem zero_mem_encode : 0 ∈ encode cs ↔ '\x00' ∈ cs := by
  constructor
  · intro h
    exact mem_of_mem_encode (b := 0) (by decide) h
  · intro h
    exact List.mem_flatMap.2 ⟨'\x00', h, by decide⟩

/-! ### Bytes of ASCII set the machine right -/

/-- No byte of ASCII is due inside a character. -/
def Beyond : State → Prop
  | .start => True
  | .inside _ low _ _ => 0x80 ≤ low

theorem beyond_lead (b : Nat) : Beyond (lead b).2 := by
  unfold lead
  repeat' split
  all_goals simp [Beyond]

theorem beyond_step (h : Beyond s) (b : UInt8) : Beyond (step s b).2 := by
  cases s with
  | start => exact beyond_lead _
  | inside need low high acc =>
    by_cases hb : low ≤ b.toNat ∧ b.toNat ≤ high
    · rw [step_inside hb]
      cases need with
      | zero => trivial
      | succ need => exact Nat.le_refl 0x80
    · simp only [step, if_neg hb]
      exact beyond_lead _

/-- Whatever has begun before a byte of ASCII ends there, and the byte stands for itself. -/
theorem step_ascii (hs : Beyond s) {b : UInt8} (hb : b.toNat < 0x80) :
    step s b = (finish s ++ [some (Char.ofNat b.toNat)], .start) := by
  cases s with
  | start => exact lead_ascii hb
  | inside need low high acc =>
    have hlow : 0x80 ≤ low := hs
    simp only [step, lead_ascii hb]
    rw [if_neg (by omega)]
    rfl

theorem itemsFrom_ascii (hs : Beyond s) {b : UInt8} (hb : b.toNat < 0x80)
    (front behind : List UInt8) :
    itemsFrom s (front ++ b :: behind) =
      itemsFrom s front ++ some (Char.ofNat b.toNat) :: itemsFrom .start behind := by
  induction front generalizing s with
  | nil =>
    rw [List.nil_append, itemsFrom_cons, step_ascii hs hb]
    simp [itemsFrom]
  | cons a front ih =>
    rw [List.cons_append, itemsFrom_cons, itemsFrom_cons, ih (beyond_step hs a), List.append_assoc]

/-- A byte of ASCII parts what is decoded before it from what is decoded behind it. -/
theorem lossy_ascii {b : UInt8} (hb : b.toNat < 0x80) (front behind : List UInt8) :
    lossy (front ++ b :: behind) = lossy front ++ Char.ofNat b.toNat :: lossy behind := by
  simp only [lossy, items_eq]
  rw [itemsFrom_ascii (s := .start) trivial hb, List.map_append, List.map_cons, Option.getD_some]

/-- A byte completes an item or leaves one begun. -/
theorem step_owes (s : State) (b : UInt8) : (step s b).1 ≠ [] ∨ (step s b).2 ≠ .start := by
  have hlead : (lead b.toNat).1 ≠ [] ∨ (lead b.toNat).2 ≠ .start := by
    unfold lead
    repeat' split
    all_goals simp
  cases s with
  | start => exact hlead
  | inside need low high acc =>
    by_cases hb : low ≤ b.toNat ∧ b.toNat ≤ high
    · rw [step_inside hb]
      cases need <;> simp
    · simp [step, if_neg hb]

theorem itemsFrom_ne_nil (h : s ≠ .start ∨ bytes ≠ []) : itemsFrom s bytes ≠ [] := by
  induction bytes generalizing s with
  | nil =>
    cases s with
    | start => simp at h
    | inside need low high acc => simp [itemsFrom, finish]
  | cons b bytes ih =>
    rw [itemsFrom_cons]
    rcases step_owes s b with hitems | hstate
    · exact List.append_ne_nil_of_left_ne_nil hitems _
    · exact List.append_ne_nil_of_right_ne_nil _ (ih (Or.inl hstate))

/-- No byte is decoded to nothing. -/
theorem lossy_eq_nil : lossy bytes = [] ↔ bytes = [] := by
  rw [lossy, List.map_eq_nil_iff, items_eq]
  constructor
  · intro h
    cases bytes with
    | nil => rfl
    | cons b bytes => exact absurd h (itemsFrom_ne_nil (Or.inr (List.cons_ne_nil b bytes)))
  · rintro rfl
    rfl

theorem size_eq_length (cs : List Char) : size cs = (encode cs).length := by
  have hfrom : ∀ n, cs.foldl (fun n c => n + c.utf8Size) n = n + (encode cs).length := by
    induction cs with
    | nil =>
      intro n
      rfl
    | cons c cs ih =>
      intro n
      have hcons : encode (c :: cs) = String.utf8EncodeChar c ++ encode cs := List.flatMap_cons
      rw [List.foldl_cons, ih, hcons, List.length_append, String.length_utf8EncodeChar,
        Nat.add_assoc]
  rw [size, hfrom, Nat.zero_add]

end ScriptProbe.Text.Utf8
