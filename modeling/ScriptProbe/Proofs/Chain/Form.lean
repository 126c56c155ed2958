import ScriptProbe.Chain.Form
import ScriptProbe.Chain.View
import ScriptProbe.Proofs.Json.Place
import ScriptProbe.Proofs.Json.Record
import ScriptProbe.Proofs.Text.Hex

/-! Scripts are read back from the text they are written as, also as parts of a transaction. -/
namespace ScriptProbe

open ScriptProbe.Json ScriptProbe.Json.Record ScriptProbe.Text

variable {α : Type} {v w : Json} {tx : MockTransaction} {i : Nat}

/-! ### Scripts -/

theorem bytes_view (bytes : List UInt8) : Form.bytes (View.bytes bytes) = .ok bytes := by
  have hdigits : after? ['0', 'x'] (Hex.prefixed bytes).toList = some (Hex.encode bytes) := by
    simpa [Hex.prefixed] using after?_append ['0', 'x'] (Hex.encode bytes)
  have heven : Utf8.size (Hex.encode bytes) % 2 ≠ 1 := by
    rw [Hex.size_encode]
    omega
  simp only [View.bytes, Form.bytes, hdigits, if_neg heven, Hex.decode?_encode]

theorem digest_view (d : Digest) : Form.digest (View.digest d) = .ok d := by
  have hdigits : after? ['0', 'x'] d.text.toList = some (Hex.encode d.bytes) := by
    simpa [Digest.text, Hex.prefixed] using after?_append ['0', 'x'] (Hex.encode d.bytes)
  have hsize : Utf8.size (Hex.encode d.bytes) = 64 := by rw [Hex.size_encode, d.size_eq]
  have hdecode : (Hex.decode? (Hex.encode d.bytes)).bind Digest.ofBytes? = some d := by
    rw [Hex.decode?_encode, Option.bind_some, Digest.ofBytes?_bytes]
  obtain ⟨c, cs, hcs⟩ := List.exists_cons_of_ne_nil (Hex.encode_ne_nil (Hex.digest_ne_nil d))
  rw [hcs] at hdigits hsize hdecode
  simp only [View.digest, Form.digest, hdigits]
  rw [if_neg (not_not_intro hsize), hdecode]

theorem whole_view (s : Script) : Whole s.view := by
  refine .obj fun m hm => ?_
  simp only [List.mem_cons, List.not_mem_nil, or_false] at hm
  rcases hm with rfl | rfl | rfl <;> exact .str _

theorem nests_view (s : Script) (depth : Nat) : Nests (depth + 1) s.view := by
  refine .obj fun m hm => ?_
  simp only [List.mem_cons, List.not_mem_nil, or_false] at hm
  rcases hm with rfl | rfl | rfl <;> exact .str _

theorem canonical_view (s : Script) :
    canonical s.view = .obj [("args", View.bytes s.args), ("code_hash", View.digest s.codeHash),
      ("hash_type", .str s.hashType.name)] := by
  have hcode : ¬"hash_type" < "code_hash" := by decide
  have hargs : "args" < "code_hash" := by decide
  simp [Script.view, canonical, canonicalMembers, Json.ofMembers, Json.insert, hcode, hargs,
    View.digest, View.bytes]

theorem variant_name (t : HashType) : variant HashType.names (.str t.name) = .ok t := by
  cases t <;> rfl

/-- A script is read from its view, its members in order. -/
theorem form_view (s : Script) : Script.form (canonical s.view) = .ok s := by
  obtain ⟨codeHash, hashType, args⟩ := s
  rw [canonical_view, Script.form, strict_obj]
  refine ⟨?_, rfl⟩
  simp [find?, digest_view, bytes_view, variant_name]

/-! ### Parts of a transaction -/

/-- A step to the field of a record, by its name or by its index. -/
def Leads (name : String) (index : Nat) (step : Step) : Prop :=
  step = .member name ∨ step = .item index

/-- The steps from a mock transaction to the type script of one of its outputs. -/
def ToOutputType (i : Nat) (path : List Step) : Prop :=
  ∃ tx outputs type, path = [tx, outputs, .item i, type] ∧
    Leads "tx" 1 tx ∧ Leads "outputs" 4 outputs ∧ Leads "type" 2 type

theorem part?_item {items : List Json} {indexed : Items} (h : items.zipIdx = indexed) (i : Nat) :
    part? (.arr items) (.item i) = indexed[i]?.map Prod.fst := by
  rw [part?, ← h, ← List.getElem?_map, List.zipIdx_map_fst]

theorem transaction_part {step : Step} (h : MockTransaction.form v = .ok tx)
    (hstep : Leads "tx" 1 step) (hpart : part? v step = some w) :
    Transaction.form w = .ok tx.tx := by
  rcases hstep with rfl | rfl
  · cases v with
    | obj members =>
      simp only [MockTransaction.form, lenient_obj, ofMembers_seq, ofMembers_map,
        ofMembers_field] at h
      obtain ⟨_, t, ⟨_, _, rfl⟩, ⟨x, hx, ht⟩, rfl⟩ := h
      rwa [Option.some.inj (hpart.symm.trans hx)]
    | _ => simp [part?] at hpart
  · cases v with
    | arr items =>
      simp only [MockTransaction.form, lenient_arr, ofItems_seq, ofItems_map, ofItems_field] at h
      obtain ⟨_, _, t, ⟨_, ⟨x, j, hx, _⟩, rfl⟩, ⟨y, k, hy, ht⟩, rfl⟩ := h
      subst hy
      rw [part?_item hx] at hpart
      rwa [← Option.some.inj hpart]
    | _ => simp [part?] at hpart

theorem outputs_part {t : Transaction} {step : Step} (h : Transaction.form v = .ok t)
    (hstep : Leads "outputs" 4 step) (hpart : part? v step = some w) :
    Json.list CellOutput.form w = .ok t.outputs := by
  rcases hstep with rfl | rfl
  · cases v with
    | obj members =>
      simp only [Transaction.form, strict_obj, ofMembers_seq, ofMembers_map, ofMembers_field] at h
      obtain ⟨⟨_, _, ⟨_, _, ⟨_, _, ⟨_, _, ⟨_, _, ⟨_, _, ⟨_, -, rfl⟩, -, rfl⟩, -, rfl⟩, -, rfl⟩,
        ⟨x, hx, hout⟩, rfl⟩, -, rfl⟩, -, rfl⟩, -⟩ := h
      rwa [Option.some.inj (hpart.symm.trans hx)]
    | _ => simp [part?] at hpart
  · cases v with
    | arr items =>
      simp only [Transaction.form, strict_arr, ofItems_seq, ofItems_map, ofItems_field] at h
      obtain ⟨_, _, _, ⟨_, _, _, ⟨_, _, _, ⟨_, _, _, ⟨_, _, _, ⟨_, _, _, ⟨_, ⟨_, _, h₀, -⟩, rfl⟩,
        ⟨_, _, h₁, -⟩, rfl⟩, ⟨_, _, h₂, -⟩, rfl⟩, ⟨_, _, h₃, -⟩, rfl⟩, ⟨x, _, h₄, hout⟩, rfl⟩,
        -, rfl⟩, -, rfl⟩ := h
      subst h₁ h₂ h₃ h₄
      rw [part?_item h₀] at hpart
      rwa [← Option.some.inj hpart]
    | _ => simp [part?] at hpart

theorem type_part {cell : CellOutput} {step : Step} (h : CellOutput.form v = .ok cell)
    (hstep : Leads "type" 2 step) (hpart : part? v step = some w) :
    nullable Script.form w = .ok cell.type := by
  rcases hstep with rfl | rfl
  · cases v with
    | obj members =>
      simp only [CellOutput.form, strict_obj, ofMembers_seq, ofMembers_map, ofMembers_field,
        ofMembers_optional] at h
      obtain ⟨⟨_, _, ⟨_, _, ⟨_, -, rfl⟩, -, rfl⟩, ⟨hnone, -⟩ | ⟨x, hx, htype⟩, rfl⟩, -⟩ := h
      · simp [part?, hnone] at hpart
      · rwa [Option.some.inj (hpart.symm.trans hx)]
    | _ => simp [part?] at hpart
  · cases v with
    | arr items =>
      simp only [CellOutput.form, strict_arr, ofItems_seq, ofItems_map, ofItems_field,
        ofItems_optional] at h
      obtain ⟨_, _, _, ⟨_, _, _, ⟨_, ⟨_, _, h₀, -⟩, rfl⟩, ⟨_, _, h₁, -⟩, rfl⟩,
        ⟨x, _, h₂, htype⟩, rfl⟩ := h
      subst h₁ h₂
      rw [part?_item h₀] at hpart
      rwa [← Option.some.inj hpart]
    | _ => simp [part?] at hpart

/-- Items that are read one by one give as many values, in order. -/
theorem mapM_getElem? {β ε : Type} {f : β → Except ε α} {items : List β} {as : List α} {x : β}
    (h : items.mapM f = .ok as) (hx : items[i]? = some x) : ∃ a, as[i]? = some a ∧ f x = .ok a := by
  induction items generalizing as i with
  | nil => simp at hx
  | cons y items ih =>
    rw [List.mapM_cons] at h
    cases hy : f y with
    | error e => simp [hy, bind, Except.bind] at h
    | ok b =>
      cases hrest : items.mapM f with
      | error e => simp [hy, hrest, bind, Except.bind] at h
      | ok bs =>
        simp only [hy, hrest, bind, Except.bind, pure, Except.pure, Except.ok.injEq] at h
        subst h
        cases i with
        | zero =>
          obtain rfl : y = x := by simpa using hx
          exact ⟨b, rfl, hy⟩
        | succ i => simpa using ih (i := i) hrest (by simpa using hx)

theorem list_part {form : Form α} {as : List α} (h : Json.list form v = .ok as)
    (hpart : part? v (.item i) = some w) : ∃ a, as[i]? = some a ∧ form w = .ok a := by
  cases v with
  | arr items =>
    have hitem : items.zipIdx[i]? = some (w, i) := by
      simpa [List.getElem?_zipIdx, part?] using hpart
    obtain ⟨a, ha, hform⟩ := mapM_getElem? h hitem
    exact ⟨a, ha, mapError_eq_ok.1 hform⟩
  | _ => simp [part?] at hpart

/-- The type script of an output is read from the part of the document that stands there. -/
theorem type_of_output {path : List Step} (h : MockTransaction.form v = .ok tx)
    (hpath : ToOutputType i path) (hat : at? v path = some w) :
    ∃ cell, tx.tx.outputs[i]? = some cell ∧ nullable Script.form w = .ok cell.type := by
  obtain ⟨first, second, last, rfl, hfirst, hsecond, hlast⟩ := hpath
  simp only [at?, Option.bind_eq_some_iff, Option.some.injEq] at hat
  obtain ⟨t, ht, outputs, houtputs, cell, hcell, type, htype, rfl⟩ := hat
  have hlist := outputs_part (transaction_part h hfirst ht) hsecond houtputs
  obtain ⟨c, hc, hform⟩ := list_part hlist hcell
  exact ⟨c, hc, type_part hform hlast htype⟩

end ScriptProbe
