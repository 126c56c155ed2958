import Mathlib.Data.List.Chain
import ScriptProbe.Proofs.Json.Order
import ScriptProbe.Proofs.Text.Hex

/-! Where braces stand in the text of a value. Its indented text has two of them side by side only
within a string or a key. -/
namespace ScriptProbe.Json

open ScriptProbe.Text

variable {cs ds sep : List Char} {c : Char} {v : Json}

/-! ### Texts without a brace -/

theorem brace_not_mem_escape (h : c ≠ '{') : '{' ∉ escape c := by
  have hbyte : '{' ∉ Hex.ofByte (UInt8.ofNat c.toNat) := by
    simpa [Hex.encode] using Hex.not_mem_encode (c := '{') rfl [UInt8.ofNat c.toNat]
  unfold escape
  repeat' split
  all_goals simp [hbyte, Ne.symm h]

theorem brace_not_mem_strText {s : String} (h : '{' ∉ s.toList) : '{' ∉ strText s := by
  have hescape : '{' ∉ s.toList.flatMap escape := by
    intro hmem
    obtain ⟨c, hc, hbrace⟩ := List.mem_flatMap.1 hmem
    exact brace_not_mem_escape (fun heq => h (heq ▸ hc)) hbrace
  simp [strText, hescape]

theorem brace_not_mem_newline (level : Nat) : '{' ∉ newline level := by
  intro h
  rcases List.mem_cons.1 h with h | h
  · cases h
  · cases List.eq_of_mem_replicate h

theorem brace_not_mem_intText (n : Int) : '{' ∉ intText n := by
  have hdigits : '{' ∉ Nat.toDigits 10 n.natAbs := by
    intro h
    cases isDigit_of_mem_digits h
  unfold intText
  split
  · simp [hdigits]
  · exact hdigits

/-! ### Texts with braces apart -/

/-- No two opening braces stand side by side. -/
def Apart (cs : List Char) : Prop := cs.IsChain fun c d => ¬(c = '{' ∧ d = '{')

theorem apart_cons_cons {d : Char} :
    Apart (c :: d :: cs) ↔ ¬(c = '{' ∧ d = '{') ∧ Apart (d :: cs) :=
  List.isChain_cons_cons

theorem apart_iff_unlisted : Apart cs ↔ ¬['{', '{'] <:+: cs := by
  induction cs with
  | nil => simp [Apart]
  | cons c cs ih =>
    cases cs with
    | nil => simp [Apart, List.infix_cons_iff]
    | cons d cs =>
      have hsplit : ['{', '{'] <:+: c :: d :: cs ↔
          (c = '{' ∧ d = '{') ∨ ['{', '{'] <:+: d :: cs := by
        rw [List.infix_cons_iff]
        simp [List.cons_prefix_cons, eq_comm]
      rw [apart_cons_cons, ih, hsplit, not_or]

theorem apart_of_not_mem (h : '{' ∉ cs) : Apart cs := by
  rw [apart_iff_unlisted]
  intro hpair
  exact h (hpair.subset List.mem_cons_self)

/-- Braces stand apart, and none at the end, so that any such text may follow. -/
structure Shut (cs : List Char) : Prop where
  apart : Apart cs
  last : cs.getLast? ≠ some '{'

theorem shut_of_not_mem (h : '{' ∉ cs) : Shut cs :=
  ⟨apart_of_not_mem h, fun hlast => h (List.mem_of_getLast? hlast)⟩

theorem Shut.append (h : Shut cs) (h' : Shut ds) : Shut (cs ++ ds) := by
  refine ⟨List.isChain_append.2 ⟨h.apart, h'.apart, ?_⟩, ?_⟩
  · rintro c hc d - ⟨rfl, -⟩
    exact h.last hc
  · have hlast := h'.last
    rw [List.getLast?_append]
    cases hds : ds.getLast? with
    | none => exact h.last
    | some d => rwa [hds] at hlast

theorem Shut.cons (hc : c ≠ '{') (h : Shut cs) : Shut (c :: cs) :=
  by
  have hfront : Shut [c] := shut_of_not_mem (by simpa using Ne.symm hc)
  exact hfront.append h

/-- A brace may stand where something else follows it. -/
theorem Shut.brace (hc : c ≠ '{') (h : Shut (c :: cs)) : Shut ('{' :: c :: cs) := by
  refine ⟨apart_cons_cons.2 ⟨fun hboth => hc hboth.2, h.apart⟩, ?_⟩
  rw [List.getLast?_cons_cons]
  exact h.last

theorem shut_joinWith {texts : List (List Char)} (hsep : Shut sep) (h : ∀ text ∈ texts, Shut text) :
    Shut (joinWith sep texts) := by
  induction texts with
  | nil => exact shut_of_not_mem List.not_mem_nil
  | cons text texts ih =>
    obtain ⟨htext, htexts⟩ := List.forall_mem_cons.1 h
    cases texts with
    | nil => exact htext
    | cons next texts =>
      rw [joinWith.eq_3 _ _ _ (by simp)]
      exact (htext.append hsep).append (ih htexts)

/-! ### Values -/

/-- Escapes add no brace, and a brace that is escaped stays one. -/
theorem apart_flatMap_escape (h : Apart cs) : Apart (cs.flatMap escape) := by
  induction cs with
  | nil => exact h
  | cons c cs ih =>
    have htail : Apart (cs.flatMap escape) := ih (List.IsChain.of_cons h)
    rw [List.flatMap_cons]
    refine List.isChain_append.2 ⟨?_, htail, ?_⟩
    · by_cases hc : c = '{'
      · subst hc
        exact List.isChain_singleton _
      · exact apart_of_not_mem (brace_not_mem_escape hc)
    · rintro x hx y hy ⟨rfl, rfl⟩
      -- The brace at the end of the first escape is `c`, and the one at the front of the rest comes
      -- next to it.
      have hc : c = '{' := by
        by_contra hc
        exact brace_not_mem_escape hc (List.mem_of_getLast? hx)
      cases cs with
      | nil => simp at hy
      | cons d cs =>
        have hd : d ≠ '{' := fun hd => (apart_cons_cons.1 h).1 ⟨hc, hd⟩
        obtain ⟨e, es, hescape⟩ := List.exists_cons_of_length_pos (charText_escape d).length_pos
        have hbrace : '{' ∈ escape d := by
          rw [List.flatMap_cons, hescape] at hy
          rw [hescape, Option.some.inj hy]
          exact List.mem_cons_self
        exact brace_not_mem_escape hd hbrace

theorem shut_strText {s : String} (h : Apart s.toList) : Shut (strText s) := by
  have hquote : Shut ['"'] := shut_of_not_mem (by simp)
  refine ⟨?_, by rw [strText, List.getLast?_concat]; simp⟩
  have hbody : Apart (s.toList.flatMap escape ++ ['"']) := by
    refine List.isChain_append.2 ⟨apart_flatMap_escape h, hquote.apart, ?_⟩
    rintro c - d hd ⟨-, rfl⟩
    simp at hd
  rw [strText, List.cons_append]
  exact List.isChain_append.2 ⟨hquote.apart, hbody, by rintro c hc d - ⟨rfl, -⟩; simp at hc⟩

/-- Whole numbers only, and no string and no key that holds two opening braces side by side. -/
inductive Unmarked : Json → Prop
  | null : Unmarked .null
  | bool (b : Bool) : Unmarked (.bool b)
  | int (n : Int) : Unmarked (.int n)
  | str {s : String} (h : ¬['{', '{'] <:+: s.toList) : Unmarked (.str s)
  | arr {items : List Json} (h : ∀ v ∈ items, Unmarked v) : Unmarked (.arr items)
  | obj {members : List (String × Json)} (hkeys : ∀ m ∈ members, ¬['{', '{'] <:+: m.1.toList)
    (h : ∀ m ∈ members, Unmarked m.2) : Unmarked (.obj members)

/-- What was read and holds no float is written out without loss. -/
theorem Unmarked.whole {depth : Nat} (hv : Unmarked v) (hformed : Formed depth v) : Whole v := by
  induction hv generalizing depth with
  | null => exact .null
  | bool b => exact .bool b
  | int n =>
    cases hformed with
    | plain h => exact .int h
  | str _ => exact .str _
  | arr _ ih =>
    cases hformed with
    | plain h => exact h.elim
    | arr h => exact .arr fun v hv => ih v hv (h v hv)
  | obj _ _ ih =>
    cases hformed with
    | plain h => exact h.elim
    | obj _ h => exact .obj fun m hm => ih m hm (h m hm)

theorem shut_block {opening closing : Char} (hclosing : closing ≠ '{') (level : Nat)
    {entries : List (List Char)} (h : ∀ entry ∈ entries, Shut entry) :
    Shut (block opening closing level entries) := by
  have hend : Shut [closing] := shut_of_not_mem (by simpa using Ne.symm hclosing)
  have hline : ∀ level, Shut (newline level) :=
    fun level => shut_of_not_mem (brace_not_mem_newline level)
  have hopen : ∀ {c : Char} {cs : List Char}, c ≠ '{' → Shut (c :: cs) →
      Shut (opening :: c :: cs) := by
    intro c cs hc hcs
    by_cases hopening : opening = '{'
    · subst hopening
      exact hcs.brace hc
    · exact hcs.cons hopening
  cases entries with
  | nil => exact hopen hclosing hend
  | cons entry entries =>
    have hentries : Shut (joinWith (',' :: newline (level + 1)) (entry :: entries)) :=
      shut_joinWith ((hline (level + 1)).cons (by decide)) h
    exact hopen (by decide)
      ((((hline (level + 1)).append hentries).append (hline level)).append hend)

theorem shut_pretty (hv : Unmarked v) (level : Nat) : Shut (pretty level v) := by
  induction hv generalizing level with
  | null => exact shut_of_not_mem (by simp [pretty])
  | bool b => cases b <;> exact shut_of_not_mem (by simp [pretty])
  | int n => exact shut_of_not_mem (brace_not_mem_intText n)
  | str h => exact shut_strText (apart_iff_unlisted.2 h)
  | arr _ ih =>
    rw [pretty, prettyItems_eq]
    exact shut_block (by decide) level (List.forall_mem_map.2 fun v hv => ih v hv (level + 1))
  | obj hkeys _ ih =>
    rw [pretty, prettyMembers_eq]
    refine shut_block (by decide) level (List.forall_mem_map.2 fun m hm => ?_)
    have hkey : Shut (strText m.1) := shut_strText (apart_iff_unlisted.2 (hkeys m hm))
    exact hkey.append (((ih m hm (level + 1)).cons (by decide)).cons (by decide))

theorem shut_toPrettyText (hv : Unmarked v) : Shut v.toPrettyText.toList := by
  rw [toPrettyText, String.toList_ofList]
  exact shut_pretty hv 0

end ScriptProbe.Json
