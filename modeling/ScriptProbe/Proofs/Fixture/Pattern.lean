import ScriptProbe.Proofs.Fixture.Template

/-! Markers as patterns that try their ways of matching in order, and what two such patterns capture
of the same text: a Type ID is recorded exactly if its script is written. -/
namespace ScriptProbe.Marker

open ScriptProbe.Text

/-! ### Patterns -/

/-- A piece of a pattern. -/
inductive Piece where
  | text (cs : List Char)
  /-- Passed over where it stands, unless what is due next is found only without that. -/
  | maybe (c : Char)
  deriving DecidableEq, Repr

/-- What is left behind some pieces, for each way of matching them, best first. -/
def rests : List Piece → List Char → List (List Char)
  | [], cs => [cs]
  | .text lead :: pieces, cs => (after? lead cs).toList.flatMap (rests pieces)
  | .maybe c :: pieces, cs => (after? [c] cs).toList.flatMap (rests pieces) ++ rests pieces cs

/-- The names that go on from `seen` (last first), each with what is left behind the pieces after
it. A shorter name goes first, and none holds a line feed. -/
def growing (back : List Piece) (seen : List Char) : List Char → List (List Char × List Char)
  | [] => (rests back []).map (seen.reverse, ·)
  | c :: cs =>
    (rests back (c :: cs)).map (seen.reverse, ·) ++ if c = '\n' then []
      else growing back (c :: seen) cs

/-- A name has one character at least. -/
def naming (back : List Piece) : List Char → List (List Char × List Char)
  | [] => []
  | c :: cs => if c = '\n' then [] else growing back [c] cs

/-- A pattern captures the name between its front and its back. -/
structure Pattern where
  front : List Piece
  back : List Piece
  deriving DecidableEq, Repr

namespace Pattern

/-- The best way of matching at the front of a text: the name, and what is left behind the match. -/
def first? (p : Pattern) (cs : List Char) : Option (List Char × List Char) :=
  ((rests p.front cs).flatMap (naming p.back)).head?

/-- Braces around a word, a space and the name, with a further space on either side or without. -/
def marker (word : List Char) : Pattern :=
  ⟨[.text opening, .maybe ' ', .text (word ++ [' '])], [.maybe ' ', .text closing]⟩

/-- The same with a double quote on either side or without. -/
def quoted (p : Pattern) : Pattern := ⟨.maybe '"' :: p.front, p.back ++ [.maybe '"']⟩

end Pattern

/-- The parts of a text along a pattern: at the first place where it matches, in the best way,
stands a marker, and the search goes on from behind the match. -/
inductive Scan (p : Pattern) : List Char → List Part → Prop
  | nil : Scan p [] []
  | char {c : Char} {cs : List Char} {ps : List Part} (h : p.first? (c :: cs) = none)
    (hcs : Scan p cs ps) :
    Scan p (c :: cs) (.char c :: ps)
  | marker {c : Char} {cs name rest : List Char} {ps : List Part}
    (h : p.first? (c :: cs) = some (name, rest))
    (hrest : Scan p rest ps) : Scan p (c :: cs) (.marker name :: ps)

variable {p : Pattern} {pieces back : List Piece} {word name cs rest : List Char}
    {ps : List Part} {c : Char}

/-! ### Pieces -/

theorem after?_singleton (c : Char) (cs : List Char) :
    after? [c] cs = if cs.head? = some c then some cs.tail else none := by
  cases cs with
  | nil => rfl
  | cons d cs => simp [after?, eq_comm]

/-- What follows one leading `c`, or else the text itself. -/
def skip (c : Char) (cs : List Char) : List Char := if cs.head? = some c then cs.tail else cs

theorem skip_of_ne {d : Char} (h : d ≠ c) (cs : List Char) : skip c (d :: cs) = d :: cs := by
  simp [skip, h]

theorem skipSpace_eq (cs : List Char) : skipSpace cs = skip ' ' cs := by
  cases cs with
  | nil => rfl
  | cons c cs =>
    by_cases hc : c = ' '
    · subst hc
      rfl
    · rw [skipSpace_of_ne hc, skip_of_ne hc]

theorem skipQuote_eq (cs : List Char) : skipQuote cs = skip '"' cs := by
  cases cs with
  | nil => rfl
  | cons c cs =>
    by_cases hc : c = '"'
    · subst hc
      rfl
    · rw [skipQuote_of_ne hc, skip_of_ne hc]

/-- A character is passed over for good if what is due next does not begin with it. -/
theorem rests_maybe (h : ∀ cs, rests pieces (c :: cs) = []) (cs : List Char) :
    rests (.maybe c :: pieces) cs = rests pieces (skip c cs) := by
  rw [rests, after?_singleton, skip]
  split
  · next hc =>
    obtain ⟨ds, rfl⟩ := List.head?_eq_some_iff.1 hc
    simp [h]
  · rfl

theorem rests_text (lead cs : List Char) : rests [.text lead] cs = (after? lead cs).toList := by
  cases h : after? lead cs <;> simp [rests, h]

theorem rests_text_of_ne {lead : List Char} (h : lead.head? ≠ some c) (hne : lead ≠ [])
    (cs : List Char) :
    rests (.text lead :: pieces) (c :: cs) = [] := by
  obtain ⟨d, lead, rfl⟩ := List.exists_cons_of_ne_nil hne
  have hd : d ≠ c := fun hd => h (by simp [hd])
  simp [rests, after?, hd]

theorem rests_append (pieces more : List Piece) (cs : List Char) :
    rests (pieces ++ more) cs = (rests pieces cs).flatMap (rests more) := by
  induction pieces generalizing cs with
  | nil => simp [rests]
  | cons piece pieces ih =>
    have hih : rests (pieces ++ more) = fun cs => (rests pieces cs).flatMap (rests more) :=
      funext ih
    cases piece <;> simp [rests, hih, List.flatMap_assoc]

/-! ### Markers -/

theorem rests_front (hword : word.head? ≠ some ' ') (hne : word ≠ []) (cs : List Char) :
    rests (Pattern.marker word).front cs =
      ((after? opening cs).bind fun ds => after? (word ++ [' ']) (skipSpace ds)).toList := by
  have hlead : (word ++ [' ']).head? ≠ some ' ' := by
    obtain ⟨d, word, rfl⟩ := List.exists_cons_of_ne_nil hne
    simpa using hword
  have hspace : ∀ ds, rests [.maybe ' ', .text (word ++ [' '])] ds =
      (after? (word ++ [' ']) (skipSpace ds)).toList := by
    intro ds
    rw [rests_maybe (rests_text_of_ne hlead (by simp)), rests_text, skipSpace_eq]
  cases h : after? opening cs with
  | none => simp [Pattern.marker, rests, h]
  | some ds => simpa [Pattern.marker, rests, h] using hspace ds

theorem head?_rests_back (cs : List Char) :
    (rests (Pattern.marker word).back cs).head? = afterEnd? cs := by
  have hclosing : after? (' ' :: closing) cs = (after? [' '] cs).bind (after? closing) := by
    cases cs with
    | nil => rfl
    | cons c cs =>
      by_cases hc : ' ' = c
      · subst hc
        simp [after?]
      · simp [after?, hc]
  rw [afterEnd?, hclosing]
  cases hspace : after? [' '] cs with
  | none => simp [Pattern.marker, rests, hspace]
  | some ds => cases hend : after? closing ds <;> simp [Pattern.marker, rests, hspace, hend]

/-- The best name is the shortest one behind which the pieces match. -/
theorem head?_growing {f : List Char → List Char}
    (h : ∀ cs, (rests back cs).head? = (afterEnd? cs).map f) (seen cs : List Char) :
    (growing back seen cs).head? = (nameFrom? seen cs).map fun (name, rest) => (name, f rest) := by
  induction cs generalizing seen with
  | nil => simp [growing, nameFrom?, h, afterEnd?, after?, closing]
  | cons c cs ih =>
    rw [growing, nameFrom?, List.head?_append, List.head?_map, h]
    cases afterEnd? (c :: cs) with
    | some rest => rfl
    | none => by_cases hc : c = '\n' <;> simp [hc, ih]

theorem head?_naming {f : List Char → List Char}
    (h : ∀ cs, (rests back cs).head? = (afterEnd? cs).map f) (cs : List Char) :
    (naming back cs).head? = (name? cs).map fun (name, rest) => (name, f rest) := by
  cases cs with
  | nil => rfl
  | cons c cs => by_cases hc : c = '\n' <;> simp [naming, name?, hc, head?_growing h]

/-- A pattern whose front begins with that of a marker and whose back goes on from the end of
one. -/
theorem first?_eq {ds : List Char} {f : List Char → List Char} (hword : word.head? ≠ some ' ')
    (hne : word ≠ []) (hfront : rests p.front cs = rests (Pattern.marker word).front ds)
    (hback : ∀ cs, (rests p.back cs).head? = (afterEnd? cs).map f) :
    p.first? cs = (at? word ds).map fun (name, rest) => (name, f rest) := by
  rw [Pattern.first?, hfront, rests_front hword hne, at?]
  cases after? opening ds with
  | none => rfl
  | some es => cases h : after? (word ++ [' ']) (skipSpace es) <;> simp [h, head?_naming hback]

theorem first?_marker (hword : word.head? ≠ some ' ') (hne : word ≠ []) (cs : List Char) :
    (Pattern.marker word).first? cs = at? word cs := by
  have hback : ∀ cs, (rests (Pattern.marker word).back cs).head? = (afterEnd? cs).map id := by
    simp [head?_rests_back]
  rw [first?_eq hword hne rfl hback]
  exact Option.map_id'

theorem first?_quoted (hword : word.head? ≠ some ' ') (hne : word ≠ []) (cs : List Char) :
    (Pattern.marker word).quoted.first? cs = quotedAt? word cs := by
  have hfront : rests (Pattern.marker word).quoted.front cs =
      rests (Pattern.marker word).front (skipQuote cs) := by
    rw [skipQuote_eq]
    exact rests_maybe (rests_text_of_ne (by decide) (by decide)) cs
  have hquote : ∀ cs, (rests [.maybe '"'] cs).head? = some (skipQuote cs) := by
    intro cs
    rw [skipQuote_eq, rests, after?_singleton, skip]
    split <;> simp [rests]
  have hback : ∀ cs,
      (rests (Pattern.marker word).quoted.back cs).head? = (afterEnd? cs).map skipQuote := by
    intro cs
    rw [Pattern.quoted, rests_append, ← @head?_rests_back word]
    cases rests (Pattern.marker word).back cs with
    | nil => rfl
    | cons ds more => simp [hquote]
  exact first?_eq hword hne hfront hback

/-- Of two quotes behind a marker one belongs to it. -/
example :
    (Pattern.marker ['d']).quoted.first?
      ('"' :: opening ++ "d a b".toList ++ closing ++ ['"', '"']) =
      some ("a b".toList, ['"']) := by decide

/-! ### Scans -/

theorem quotedAt?_suffix (h : quotedAt? word (c :: cs) = some (name, rest)) : rest <:+ cs := by
  obtain ⟨⟨found, behind⟩, hat, heq⟩ := Option.map_eq_some_iff.1 h
  obtain ⟨rfl, rfl⟩ := Prod.mk.inj heq
  obtain ⟨ds, hds, hbehind⟩ := at?_eq_some hat
  have hrest : skipQuote behind <:+ ds := (skipQuote_suffix behind).trans hbehind
  by_cases hc : c = '"'
  · subst hc
    obtain rfl : cs = '{' :: ds := hds
    exact hrest.trans (List.suffix_cons '{' ds)
  · rw [skipQuote_of_ne hc] at hds
    obtain ⟨-, rfl⟩ := List.cons.inj hds
    exact hrest

theorem scan_parts (h : ∀ {c cs name rest}, p.first? (c :: cs) = some (name, rest) → rest <:+ cs)
    (cs : List Char) : Scan p cs (parts p.first? cs) := by
  induction cs using find_induction h with
  | nil => exact .nil
  | char c cs hfirst ih =>
    rw [parts_char hfirst]
    exact .char hfirst ih
  | marker c cs name rest hfirst hrest ih =>
    rw [parts_marker hfirst hrest]
    exact .marker hfirst ih

/-- A text has parts along a pattern in one way only. -/
theorem scan_iff (h : ∀ {c cs name rest}, p.first? (c :: cs) = some (name, rest) → rest <:+ cs) :
    Scan p cs ps ↔ ps = parts p.first? cs := by
  constructor
  · intro hscan
    induction hscan with
    | nil => rfl
    | char hfirst hcs ih => rw [parts_char hfirst, ih]
    | marker hfirst hrest ih => rw [parts_marker hfirst (h hfirst), ih]
  · rintro rfl
    exact scan_parts h cs

end ScriptProbe.Marker

namespace ScriptProbe.Template

open Marker

/-- How a pass writes its markers. -/
def pattern : Pass → Pattern
  | .defineTypes => (Pattern.marker Pass.defineTypes.word).quoted
  | pass => Pattern.marker pass.word

theorem first?_pattern (pass : Pass) : (pattern pass).first? = find pass := by
  funext cs
  cases pass with
  | defineTypes => exact first?_quoted (by decide) (by decide) cs
  | _ => exact first?_marker (by decide) (by decide) cs

theorem find_suffix {pass : Pass} {c : Char} {cs name rest : List Char}
    (h : find pass (c :: cs) = some (name, rest)) : rest <:+ cs := by
  cases pass with
  | defineTypes => exact quotedAt?_suffix h
  | _ => exact at?_suffix h

theorem scan_pattern (pass : Pass) (cs : List Char) (ps : List Part) :
    Scan (pattern pass) cs ps ↔ ps = parts (find pass) cs := by
  rw [← first?_pattern]
  refine scan_iff ?_
  rw [first?_pattern]
  exact find_suffix

variable {known : List (List Char × Digest)} {names : List (List Char)} {name : List Char}
    {d : Digest}

theorem lookup_record (h : (record known names).2 = none) (name : List Char) :
    (record known names).1.lookup name =
      if name ∈ names then some (TypeId.script name).hash else known.lookup name := by
  rw [record_fresh (record_eq_none.1 h), List.lookup_append, lookup_scripts]
  by_cases hname : name ∈ names <;> simp [hname]

/-- Also where a name is found to be known, nothing but scripts of the names is recorded. -/
theorem of_lookup_record (h : (record known names).1.lookup name = some d) :
    known.lookup name = some d ∨ name ∈ names ∧ d = (TypeId.script name).hash := by
  induction names generalizing known with
  | nil => exact Or.inl h
  | cons first names ih =>
    by_cases hfirst : known.lookup first = none
    · rw [record_cons hfirst] at h
      rcases ih h with hknown | ⟨hname, hd⟩
      · by_cases heq : name = first
        · subst heq
          rw [List.lookup_cons_self] at hknown
          exact Or.inr ⟨List.mem_cons_self, (Option.some.inj hknown).symm⟩
        · rw [List.lookup_cons, beq_eq_false_iff_ne.2 heq] at hknown
          exact Or.inl hknown
      · exact Or.inr ⟨List.mem_cons_of_mem first hname, hd⟩
    · rw [record_known hfirst] at h
      exact Or.inl h

/-- On every text the two patterns of a definition capture the same names in the same order. So a
script that is written has its hash recorded, a hash that is recorded belongs to a script that is
written, and the fault is about the first definition whose name is known by then. -/
theorem definitions_recorded (w : World) (t : Template) :
    ∃ plain quoted,
      (∀ ps, Scan (pattern .recordTypes) t.text ps ↔ ps = plain) ∧
      (∀ ps, Scan (pattern .defineTypes) t.text ps ↔ ps = quoted) ∧
      Marker.names plain = Marker.names quoted ∧
      (t.apply w .recordTypes).1.text = t.text ∧
      (t.apply w .recordTypes).1.apply w .defineTypes =
        ({ (t.apply w .recordTypes).1 with text := quoted.flatMap (Part.fill typeIdText) }, none) ∧
      ((t.apply w .recordTypes).2 = none ↔ Fresh t.typeIds (Marker.names quoted)) ∧
      (∀ fault, (t.apply w .recordTypes).2 = some fault ↔
        ∃ front name behind, Marker.names quoted = front ++ name :: behind ∧ Fresh t.typeIds front ∧
          ¬Fresh t.typeIds (front ++ [name]) ∧ fault = .redefined (String.ofList name)) ∧
      ((t.apply w .recordTypes).2 = none → ∀ name, (t.apply w .recordTypes).1.typeIds.lookup name =
        if name ∈ Marker.names quoted then some (TypeId.script name).hash
          else t.typeIds.lookup name) ∧
      ∀ name d, (t.apply w .recordTypes).1.typeIds.lookup name = some d →
        t.typeIds.lookup name = some d ∨
          name ∈ Marker.names quoted ∧ d = (TypeId.script name).hash := by
  have hnames : Marker.names (parts (find .recordTypes) t.text) =
      Marker.names (parts (find .defineTypes) t.text) := (found_defineTypes t.text).symm
  have hrecord : t.apply w .recordTypes =
      ({ t with typeIds := (record t.typeIds (Marker.names (parts (find .recordTypes) t.text))).1 },
        (record t.typeIds (Marker.names (parts (find .recordTypes) t.text))).2) := rfl
  refine ⟨parts (find .recordTypes) t.text, parts (find .defineTypes) t.text, scan_pattern _ _,
    scan_pattern _ _, hnames, rfl, ?_, ?_, ?_, ?_, ?_⟩
  · exact apply_definitions w _
  · rw [hrecord, ← hnames]
    exact record_eq_none
  · intro fault
    rw [hrecord, ← hnames]
    exact record_eq_some
  · rw [hrecord, ← hnames]
    exact lookup_record
  · intro name d
    rw [hrecord, ← hnames]
    exact of_lookup_record

end ScriptProbe.Template
