import ScriptProbe.Proofs.Text.Split
import ScriptProbe.Proofs.Text.Utf8
import ScriptProbe.World.Path

/-! What a path ends in: the name that counts last, its extension, and what may stand behind it. -/
namespace ScriptProbe.Path

open ScriptProbe.Text

variable {p : Path} {cs ds name : List UInt8} {before after pieces : List (List UInt8)}

/-! ### Paths that texts name -/

@[simp] theorem text_ofText (s : String) : (ofText s).text = s := by
  rw [text, ofText, Utf8.lossy_encode, String.ofList_toList]

/-- A path that is shown as it is. -/
def IsText (p : Path) : Prop := p = ofText p.text

theorem isText_ofText (s : String) : (ofText s).IsText := by rw [IsText, text_ofText]

/-- A separator in a path is shown, and so is what stands on either side of it. -/
theorem toList_text_append (front back : List UInt8) :
    (Path.text ⟨front ++ separator :: back⟩).toList =
      Utf8.lossy front ++ '/' :: Utf8.lossy back := by
  rw [text, String.toList_ofList, Utf8.lossy_ascii (by decide)]
  rfl

theorem separator_mem_text {p : Path} (h : separator ∈ p.bytes) :
    separator ∈ (ofText p.text).bytes := by
  obtain ⟨front, back, hbytes⟩ := List.append_of_mem h
  obtain rfl : p = ⟨front ++ separator :: back⟩ := by rw [← hbytes]
  rw [ofText, toList_text_append, Utf8.encode]
  simp [String.utf8EncodeChar]

/-! ### Behind a name -/

/-- Separators, and points behind one that stand for the directory they are in. -/
inductive Trailing : List UInt8 → Prop
  | nil : Trailing []
  | separator {cs : List UInt8} (h : Trailing cs) : Trailing (separator :: cs)
  | point {cs : List UInt8} (h : Trailing cs) : Trailing (separator :: point :: cs)

theorem idle_iff {piece : List UInt8} : idle piece = true ↔ piece = [] ∨ piece = [point] := by
  simp [idle]

theorem not_mem_of_idle {piece : List UInt8} (h : idle piece = true) : separator ∉ piece := by
  rcases idle_iff.1 h with rfl | rfl <;> decide

theorem trailing_iff :
    Trailing cs ↔ ∃ pieces : List (List UInt8), (∀ piece ∈ pieces, idle piece = true) ∧
      cs = pieces.flatMap (separator :: ·) := by
  constructor
  · intro h
    induction h with
    | nil => exact ⟨[], by simp, rfl⟩
    | separator h ih =>
      obtain ⟨pieces, hidle, rfl⟩ := ih
      exact ⟨[] :: pieces, List.forall_mem_cons.2 ⟨rfl, hidle⟩, rfl⟩
    | point h ih =>
      obtain ⟨pieces, hidle, rfl⟩ := ih
      exact ⟨[point] :: pieces, List.forall_mem_cons.2 ⟨rfl, hidle⟩, rfl⟩
  · rintro ⟨pieces, hidle, rfl⟩
    induction pieces with
    | nil => exact .nil
    | cons piece pieces ih =>
      obtain ⟨hpiece, hrest⟩ := List.forall_mem_cons.1 hidle
      rcases idle_iff.1 hpiece with rfl | rfl
      · exact .separator (ih hrest)
      · exact .point (ih hrest)

/-- A separator at the end, or one with a point behind it, asks for a directory. -/
def AsksDirectory (cs : List UInt8) : Prop := [separator] <:+ cs ∨ [separator, point] <:+ cs

theorem AsksDirectory.append (h : AsksDirectory ds) (cs : List UInt8) : AsksDirectory (cs ++ ds) :=
  h.imp (·.trans (List.suffix_append cs ds)) (·.trans (List.suffix_append cs ds))

theorem Trailing.asksDirectory (h : Trailing cs) (hne : cs ≠ []) : AsksDirectory cs := by
  induction h with
  | nil => exact absurd rfl hne
  | @separator cs h ih =>
    by_cases hcs : cs = []
    · subst hcs
      exact Or.inl List.suffix_rfl
    · exact (ih hcs).append [Path.separator]
  | @point cs h ih =>
    by_cases hcs : cs = []
    · subst hcs
      exact Or.inr List.suffix_rfl
    · exact (ih hcs).append [Path.separator, Path.point]

/-! ### The name at the end -/

/-- The bytes of a path end in a name: separators stand before it, if anything does, and nothing
behind it counts. -/
def EndsIn (cs name : List UInt8) : Prop :=
  ∃ front back, cs = front ++ name ++ back ∧ (front = [] ∨ [separator] <:+ front) ∧
    separator ∉ name ∧ Trailing back

theorem split_trailing (hname : separator ∉ name) (hidle : ∀ piece ∈ after, idle piece = true) :
    split separator (name ++ after.flatMap (separator :: ·)) = name :: after := by
  have hjoined := intercalate_append separator [] name after
  simp only [List.nil_append, List.flatMap_nil] at hjoined
  rw [← hjoined]
  refine split_intercalate (by simp) (List.forall_mem_cons.2 ⟨hname, ?_⟩)
  exact fun piece hpiece => not_mem_of_idle (hidle piece hpiece)

theorem endsIn_iff :
    EndsIn p.bytes name ↔
      ∃ before after, p.pieces = before ++ name :: after ∧ ∀ piece ∈ after, idle piece = true := by
  constructor
  · rintro ⟨front, back, hbytes, hfront, hname, hback⟩
    obtain ⟨after, hidle, rfl⟩ := trailing_iff.1 hback
    rw [List.append_assoc] at hbytes
    rcases hfront with rfl | ⟨front, rfl⟩
    · refine ⟨[], after, ?_, hidle⟩
      rw [pieces, hbytes, List.nil_append, split_trailing hname hidle, List.nil_append]
    · refine ⟨split separator front, after, ?_, hidle⟩
      rw [pieces, hbytes, List.append_assoc, List.singleton_append, split_append_cons,
        split_trailing hname hidle]
  · rintro ⟨before, after, hpieces, hidle⟩
    have hbytes : p.bytes = [separator].intercalate p.pieces := (intercalate_split separator _).symm
    rw [hpieces, intercalate_append] at hbytes
    refine ⟨_, _, hbytes, ?_, ?_, trailing_iff.2 ⟨after, hidle, rfl⟩⟩
    · rcases List.eq_nil_or_concat before with rfl | ⟨init, last, rfl⟩
      · exact Or.inl rfl
      · refine Or.inr ⟨init.flatMap (· ++ [separator]) ++ last, ?_⟩
        simp
    · have hmem : name ∈ p.pieces := by simp [hpieces]
      exact not_mem_of_mem_split hmem

theorem pieces_ne_nil (p : Path) : p.pieces ≠ [] := by
  rw [pieces, split_eq_splitOn]
  exact List.splitOn_ne_nil separator _

theorem components_eq {first : List UInt8} {rest : List (List UInt8)}
    (h : p.pieces = first :: rest) :
    p.components =
      (if first = [] ∧ ¬p.isAbsolute = true then [] else [first]) ++ rest.filter fun piece =>
        !idle piece := by
  rw [components, h]
  by_cases hfirst : first = [] ∧ ¬p.isAbsolute = true
  · simp only [if_pos hfirst, List.nil_append]
  · simp only [if_neg hfirst, List.singleton_append]

theorem filter_eq_nil_iff :
    (after.filter fun piece => !idle piece) = [] ↔ ∀ piece ∈ after, idle piece = true := by
  simp [List.filter_eq_nil_iff]

/-- The last piece that counts is the last one that is not idle, or else the first of all. -/
theorem getLast?_components (hname : idle name = false) :
    p.components.getLast? = some name ↔
      ∃ before after, p.pieces = before ++ name :: after ∧ ∀ piece ∈ after, idle piece = true := by
  obtain ⟨first, rest, hpieces⟩ := List.exists_cons_of_ne_nil (pieces_ne_nil p)
  have hnil : name ≠ [] := by
    rintro rfl
    exact absurd hname (by decide)
  rw [components_eq hpieces, hpieces, List.getLast?_append]
  constructor
  · intro h
    rcases Option.or_eq_some_iff.1 h with hlast | ⟨hnone, hfirst⟩
    · rw [List.getLast?_filter, List.find?_eq_some_iff_append] at hlast
      obtain ⟨-, after, before, hrest, hidle⟩ := hlast
      refine ⟨first :: before.reverse, after.reverse, ?_, ?_⟩
      · rw [List.cons_append, ← List.reverse_reverse rest, hrest]
        simp
      · intro piece hpiece
        simpa using hidle piece (List.mem_reverse.1 hpiece)
    · refine ⟨[], rest, ?_, filter_eq_nil_iff.1 (List.getLast?_eq_none_iff.1 hnone)⟩
      by_cases hroot : first = [] ∧ ¬p.isAbsolute = true
      · rw [if_pos hroot] at hfirst
        cases hfirst
      · rw [if_neg hroot] at hfirst
        obtain rfl := Option.some.inj hfirst
        rfl
  · rintro ⟨before, after, heq, hidle⟩
    have hfilter := filter_eq_nil_iff.2 hidle
    cases before with
    | nil =>
      obtain ⟨rfl, rfl⟩ := List.cons.inj heq
      simp [hfilter, hnil]
    | cons first before =>
      obtain ⟨rfl, rfl⟩ := List.cons.inj heq
      simp [List.filter_append, hname, hfilter]

theorem fileName?_eq_some :
    p.fileName? = some name ↔ EndsIn p.bytes name ∧ idle name = false ∧ name ≠ above := by
  have hlast : p.fileName? = some name ↔
      p.components.getLast? = some name ∧ idle name = false ∧ name ≠ above := by
    rw [fileName?]
    cases p.components.getLast? with
    | none => simp
    | some last =>
      by_cases h : idle last = true ∨ last = above 
      · simp only [if_pos h]
        constructor
        · simp
        · rintro ⟨hlast, hidle, hne⟩
          obtain rfl := Option.some.inj hlast
          simp_all
      · obtain ⟨hidle, hne⟩ := not_or.1 h
        simp only [if_neg h, Option.some.injEq]
        constructor
        · rintro rfl
          exact ⟨rfl, Bool.eq_false_iff.2 hidle, hne⟩
        · exact And.left
  rw [hlast, endsIn_iff]
  constructor
  · rintro ⟨h, hidle, hne⟩
    exact ⟨(getLast?_components hidle).1 h, hidle, hne⟩
  · rintro ⟨h, hidle, hne⟩
    exact ⟨(getLast?_components hidle).2 h, hidle, hne⟩

/-- What stands behind the last point of a name. -/
theorem behindPoint_append {extension : List UInt8} (h : point ∉ extension) (stem : List UInt8) :
    ((stem ++ point :: extension).reverse.takeWhile (· ≠ point)).reverse = extension := by
  have hfree : ∀ c ∈ extension.reverse, decide (c ≠ point) = true := by
    intro c hc
    rw [decide_eq_true_iff]
    rintro rfl
    exact h (List.mem_reverse.1 hc)
  rw [List.reverse_append, List.reverse_cons, List.append_assoc, List.takeWhile_append_of_pos hfree]
  simp

/-- An extension stands behind the last point of the name, with something of the name before that
point. -/
theorem extension?_eq_some {extension : List UInt8} :
    p.extension? = some extension ↔
      ∃ stem, EndsIn p.bytes (stem ++ point :: extension) ∧ stem ≠ [] ∧ point ∉ extension ∧
        stem ++ point :: extension ≠ above := by
  rw [extension?, Option.bind_eq_some_iff]
  constructor
  · rintro ⟨name, hname, hextension⟩
    obtain ⟨hends, -, hne⟩ := fileName?_eq_some.1 hname
    by_cases hpoint : point ∈ name
    · obtain ⟨back, front, hback, hfree⟩ := List.eq_append_cons_of_mem (List.mem_reverse.2 hpoint)
      obtain rfl : name = front.reverse ++ point :: back.reverse := by
        rw [← List.reverse_reverse name, hback]
        simp
      have hfree : point ∉ back.reverse := fun h => hfree (List.mem_reverse.1 h)
      simp only [behindPoint_append hfree] at hextension
      split at hextension
      · cases hextension
      · next hlength =>
        obtain rfl := Option.some.inj hextension
        refine ⟨front.reverse, hends, ?_, hfree, hne⟩
        intro hfront
        rw [hfront] at hlength
        simp at hlength
    · have hall : name.reverse.takeWhile (· ≠ point) = name.reverse := by
        rw [List.takeWhile_eq_self_iff]
        intro c hc
        rw [decide_eq_true_iff]
        rintro rfl
        exact hpoint (List.mem_reverse.1 hc)
      simp only [hall, List.reverse_reverse, Nat.sub_self] at hextension
      cases hextension
  · rintro ⟨stem, hends, hstem, hfree, hne⟩
    have hlength := List.length_pos_iff.2 hstem
    refine ⟨stem ++ point :: extension, fileName?_eq_some.2 ⟨hends, ?_, hne⟩, ?_⟩
    · rw [Bool.eq_false_iff, Ne, idle_iff]
      intro hidle
      have hone : (stem ++ point :: extension).length ≤ 1 := by
        rcases hidle with h | h <;> simp [h]
      rw [List.length_append, List.length_cons] at hone
      omega
    · simp only [behindPoint_append hfree]
      refine if_neg ?_
      rw [List.length_append, List.length_cons]
      omega

/-! ### Single names -/

theorem bytes_eq {first : List UInt8} {rest : List (List UInt8)} (h : p.pieces = first :: rest) :
    p.bytes = first ++ rest.flatMap (separator :: ·) := by
  have hjoined := intercalate_append separator [] first rest
  simp only [List.nil_append, List.flatMap_nil] at hjoined
  rw [← hjoined, ← h]
  exact (intercalate_split separator _).symm

theorem isAbsolute_iff {first : List UInt8} {rest : List (List UInt8)}
    (h : p.pieces = first :: rest) :
    p.isAbsolute = true ↔ first = [] ∧ rest ≠ [] := by
  have hfirst : separator ∉ first :=
    not_mem_of_mem_split (h ▸ List.mem_cons_self : first ∈ p.pieces)
  rw [isAbsolute, bytes_eq h, beq_iff_eq]
  cases first with
  | nil => cases rest <;> simp
  | cons c first =>
    have hc : c ≠ separator := fun hc => hfirst (hc ▸ List.mem_cons_self)
    simp [hc]

/-- A path of one component that is not absolute is a name behind which nothing counts. -/
theorem single_iff :
    ¬(1 < p.components.length ∨ p.isAbsolute = true) ↔
      ∃ name back, p.bytes = name ++ back ∧ separator ∉ name ∧ Trailing back ∧
        (name = [] → back = []) := by
  constructor
  · intro h
    obtain ⟨hlength, habsolute⟩ := not_or.1 h
    obtain ⟨first, rest, hpieces⟩ := List.exists_cons_of_ne_nil (pieces_ne_nil p)
    have hroot : first = [] → rest = [] := by
      intro hfirst
      by_contra hrest
      exact habsolute ((isAbsolute_iff hpieces).2 ⟨hfirst, hrest⟩)
    have hidle : ∀ piece ∈ rest, idle piece = true := by
      by_cases hfirst : first = []
      · simp [hroot hfirst]
      · rw [components_eq hpieces, if_neg fun h => hfirst h.1, List.length_append] at hlength
        have hnone : rest.filter (fun piece => !idle piece) = [] := by
          apply List.eq_nil_of_length_eq_zero
          simp only [List.length_singleton] at hlength
          omega
        exact filter_eq_nil_iff.1 hnone
    refine ⟨first, _, bytes_eq hpieces, ?_, trailing_iff.2 ⟨rest, hidle, rfl⟩, ?_⟩
    · exact not_mem_of_mem_split (hpieces ▸ List.mem_cons_self : first ∈ p.pieces)
    · intro hfirst
      rw [hroot hfirst]
      rfl
  · rintro ⟨name, back, hbytes, hname, hback, hempty⟩
    obtain ⟨rest, hidle, rfl⟩ := trailing_iff.1 hback
    have hpieces : p.pieces = name :: rest := by rw [pieces, hbytes, split_trailing hname hidle]
    rintro (hlength | habsolute)
    · rw [components_eq hpieces, filter_eq_nil_iff.2 hidle, List.append_nil] at hlength
      split at hlength <;> simp at hlength
    · obtain ⟨hnil, hrest⟩ := (isAbsolute_iff hpieces).1 habsolute
      obtain ⟨piece, rest, rfl⟩ := List.exists_cons_of_ne_nil hrest
      cases hempty hnil

end ScriptProbe.Path
