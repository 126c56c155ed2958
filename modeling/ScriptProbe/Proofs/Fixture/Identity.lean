import ScriptProbe.Proofs.Chain.Script
import ScriptProbe.Proofs.Fixture.TypeId

/-! Hashes stand for scripts: two cells have one hash exactly if they hold one script, and two
references to Type IDs are filled in alike exactly if their names are the same. -/
namespace ScriptProbe

open ScriptProbe.Text Marker

/-! ### Cells -/

namespace MockTransaction

variable {tx : MockTransaction} {group : ScriptGroup} {side : CellSide} {i : Nat} {s : Script}

/-- The script has that role in the cell that stands there. -/
def Holds (tx : MockTransaction) (group : ScriptGroup) (side : CellSide) (i : Nat) (s : Script) :
    Prop :=
  ∃ cell, (tx.cells side)[i]? = some cell ∧ cell.script? group = some s

theorem scriptHash_of_holds (h : Holds tx group side i s) :
    tx.scriptHash group side i = .ok s.hash := by
  obtain ⟨cell, hcell, hscript⟩ := h
  have hlocate : tx.locate group side i = .ok s := by
    simp only [locate, hcell, hscript]
  rw [scriptHash, hlocate]
  rfl

end MockTransaction

/-! ### References -/

namespace Template

variable {w : World} {path : Path} {text result : String} {a b : List Char}

/-- The passes before references are filled in. -/
def definitions : List Pass := [.data, .hash, .recordTypes, .defineTypes]

/-- What a reference to a Type ID comes to. -/
def reference (name : List Char) : List Char := Hex.encode (TypeId.script name).hash.bytes

/-- Wherever a template expands, its references come to the hashes of their names. -/
theorem references_of_expand (h : (ofText path text).expand w = .ok result) :
    ∃ t, applyAll w definitions (ofText path text) = .ok t ∧
      (∀ name ∈ found .referTypes t.text, t.value w .referTypes name = .ok (reference name)) ∧
      result.toList = (parts (find .referTypes) t.text).flatMap (Part.fill reference) := by
  obtain ⟨last, hlast, rfl⟩ := expand_eq_ok.1 h
  obtain ⟨t, ht, hrefer⟩ := (applyAll_append definitions [.referTypes]).1 hlast
  obtain ⟨t', hfiles, hdefine⟩ := (applyAll_append [.data, .hash] [.recordTypes, .defineTypes]).1 ht
  obtain ⟨-, rfl⟩ := (applyAll_define (applyAll_files_typeIds hfiles)).1 hdefine
  obtain ⟨hvalues, rfl⟩ := (referTypes_eq_ok rfl).1 hrefer
  refine ⟨_, ht, fun name hname => ?_, String.toList_ofList⟩
  obtain ⟨written, hwritten⟩ := hvalues name hname
  rw [hwritten, reference, text_of_value rfl hwritten]

theorem reference_eq_iff (h : ¬Script.Collide (TypeId.script a).encode (TypeId.script b).encode) :
    reference a = reference b ↔ a = b := by
  constructor
  · intro heq
    have hhash := Digest.eq_of_bytes (Hex.encode_injective heq)
    exact TypeId.script_injective ((Script.hash_eq_iff h).1 hhash)
  · rintro rfl
    rfl

end Template

/-! ### What a hash tells -/

namespace Script

open MockTransaction Template

/-- Bytes that tell of a script are its binary form, and no other script has that form. So two cells
have one hash exactly if they hold one script, and references are filled in with one hash exactly if
their names are the same, unless the bytes that are hashed collide. -/
theorem hash_identifies (w : World) :
    (∀ s bytes, Laid s bytes ↔ 53 + s.args.length < UInt32.size ∧ bytes = s.encode) ∧
    (∀ a b : Script, a.encode = b.encode →
      a.codeHash = b.codeHash ∧ a.hashType = b.hashType ∧ a.args = b.args) ∧
    (∀ tx tx' group group' side side' i j a b, Holds tx group side i a →
      Holds tx' group' side' j b →
      ∃ d e, tx.scriptHash group side i = .ok d ∧ tx'.scriptHash group' side' j = .ok e ∧
        (¬Collide a.encode b.encode → (d = e ↔ a = b))) ∧
    (∀ path text result, (ofText path text).expand w = .ok result →
      ∃ t, applyAll w definitions (ofText path text) = .ok t ∧
        (∀ name ∈ found .referTypes t.text, t.value w .referTypes name = .ok (reference name)) ∧
        result.toList = (parts (find .referTypes) t.text).flatMap (Part.fill reference)) ∧
    ∀ a b, ¬Collide (TypeId.script a).encode (TypeId.script b).encode →
      (reference a = reference b ↔ a = b) := by
  refine ⟨fun s bytes => laid_iff, fun a b h => ?_, ?_,
    fun path text result => references_of_expand, fun a b => reference_eq_iff⟩
  · obtain rfl := encode_injective h
    exact ⟨rfl, rfl, rfl⟩
  · intro tx tx' group group' side side' i j a b ha hb
    exact ⟨_, _, scriptHash_of_holds ha, scriptHash_of_holds hb, hash_eq_iff⟩

/-- Two outputs with the scripts of Type IDs; the second has the lock of the first for its type. -/
def namedCells : MockTransaction where
  info := ⟨[], [], [], []⟩
  tx := ⟨0, [], [], [],
    [⟨0, TypeId.script ['a'], none⟩, ⟨0, TypeId.script ['b'], some (TypeId.script ['a'])⟩],
    [], []⟩

/-- References before and between the definitions of their names. -/
def namedText : List Char :=
  "{{ ref_type b }}{{ def_type a }}{{ ref_type a }}{{ def_type b }}".toList

theorem expand_namedText :
    ∃ result t,
      (ofText (.ofText "fixture.json") (String.ofList namedText)).expand bareWorld = .ok result ∧
      applyAll bareWorld definitions
        (ofText (.ofText "fixture.json") (String.ofList namedText)) = .ok t ∧
      found .referTypes t.text = [['b'], ['a']] := by
  have hstart : ofText (.ofText "fixture.json") (String.ofList namedText) =
      ⟨.ofText "", namedText, []⟩ := by
    have hroot : (Path.parent? (.ofText "fixture.json")).getD (.ofText ".") =
        (.ofText "") := by decide
    simp [ofText, hroot]
  have hexpand : (applyAll bareWorld passes ⟨.ofText "", namedText, []⟩).toOption.isSome =
      true := by decide +kernel
  have hfound : (applyAll bareWorld definitions ⟨.ofText "", namedText, []⟩).map
      (fun t => found .referTypes t.text) = .ok [['b'], ['a']] := by decide +kernel
  obtain ⟨last, hlast⟩ := Option.isSome_iff_exists.1 hexpand
  obtain ⟨t, ht, hnames⟩ := Json.map_eq_ok.1 hfound
  rw [hstart]
  exact ⟨_, t, expand_eq_ok.2 ⟨last, Json.toOption_eq_some.1 hlast, rfl⟩, ht, hnames⟩

theorem hash_identifies_named :
    Laid ⟨TypeId.codeHash, .data2, [7]⟩
      ([54, 0, 0, 0] ++ [16, 0, 0, 0] ++ [48, 0, 0, 0] ++ [49, 0, 0, 0] ++
      TypeId.codeHash.bytes ++ [4] ++ [1, 0, 0, 0] ++ [7]) ∧
    (∃ d e, namedCells.scriptHash .lock .output 0 = .ok d ∧
      namedCells.scriptHash .lock .output 1 = .ok e ∧
      d ≠ e ∧ namedCells.scriptHash .type .output 1 = .ok d) ∧
    ∃ t, applyAll bareWorld definitions
      (ofText (.ofText "fixture.json") (String.ofList namedText)) = .ok t ∧
      t.value bareWorld .referTypes ['a'] = .ok (reference ['a']) ∧
      t.value bareWorld .referTypes ['b'] = .ok (reference ['b']) ∧
      reference ['a'] ≠ reference ['b'] := by
  have hnames : ['a'] ≠ ['b'] := by decide
  have hcollide : ¬Collide (TypeId.script ['a']).encode (TypeId.script ['b']).encode := by
    have hhash : (TypeId.script ['a']).hash ≠ (TypeId.script ['b']).hash := by decide +kernel
    exact fun h => hhash h.2
  obtain ⟨hlaid, -, hcells, hexpand, hreference⟩ := hash_identifies bareWorld
  refine ⟨(hlaid _ _).2 ⟨by decide, rfl⟩, ?_, ?_⟩
  · obtain ⟨d, e, hd, he, hlocks⟩ :=
      hcells namedCells namedCells .lock .lock .output .output 0 1 _ _
      ⟨_, rfl, rfl⟩ ⟨_, rfl, rfl⟩
    obtain ⟨d', e', hd', he', hshared⟩ :=
      hcells namedCells namedCells .lock .type .output .output 0 1 _ _
      ⟨_, rfl, rfl⟩ ⟨_, rfl, rfl⟩
    obtain rfl := Except.ok.inj (hd.symm.trans hd')
    obtain rfl := (hshared fun h => h.1 rfl).2 rfl
    exact ⟨d, e, hd, he, fun h => hnames (TypeId.script_injective ((hlocks hcollide).1 h)), he'⟩
  · obtain ⟨result, t, hresult, ht, hfound⟩ := expand_namedText
    obtain ⟨t', ht', hvalues, -⟩ := hexpand _ _ _ hresult
    obtain rfl := Except.ok.inj (ht.symm.trans ht')
    exact ⟨t, ht, hvalues ['a'] (by simp [hfound]), hvalues ['b'] (by simp [hfound]),
      mt (hreference ['a'] ['b'] hcollide).1 hnames⟩

end Script

end ScriptProbe
