import Mathlib.Logic.Function.Basic
import ScriptProbe.Fixture.Template
import ScriptProbe.Proofs.Fixture.Marker

/-! Templates by their literals and markers, and what a pass finds in them. -/
namespace ScriptProbe.Template

open ScriptProbe.Text Marker

/-- What a marker asks for. -/
inductive Kind where
  | data
  | hash
  | define
  | refer
  deriving DecidableEq

def Kind.word : Kind → List Char
  | data => Pass.data.word
  | hash => Pass.hash.word
  | define => Pass.defineTypes.word
  | refer => Pass.referTypes.word

/-- Literals and markers in turns. -/
inductive Sheet where
  | last (literal : List Char)
  | marker (literal : List Char) (kind : Kind) (name : List Char) (rest : Sheet)

/-- A marker as it is written in a template, with single spaces. -/
def written (kind : Kind) (name : List Char) : List Char :=
  opening ++ ' ' :: (kind.word ++ ' ' :: (name ++ ' ' :: closing))

/-- A literal that begins no marker. -/
def Literal (text : List Char) : Prop := ¬opening <:+: text

/-- A name that a marker can hold, whatever stands behind it. -/
def Named (name : List Char) : Prop := name ≠ [] ∧ ∀ c ∈ name, c ≠ '\n' ∧ c ≠ '{' ∧ c ≠ '}'

instance (text : List Char) : Decidable (Literal text) :=
  have : Decidable (opening <:+: text) := List.instDecidableIsInfixOfDecidableEq opening text
  inferInstanceAs (Decidable (¬_))

instance (name : List Char) : Decidable (Named name) :=
  have : Decidable (∀ c ∈ name, c ≠ '\n' ∧ c ≠ '{' ∧ c ≠ '}') := List.decidableBAll _ name
  inferInstanceAs (Decidable (_ ∧ _))

namespace Sheet

def Proper : Sheet → Prop
  | last literal => Literal literal
  | marker literal _ name rest => Literal literal ∧ Named name ∧ rest.Proper

instance decidableProper : (s : Sheet) → Decidable s.Proper
  | last literal => inferInstanceAs (Decidable (Literal literal))
  | marker literal _ name rest =>
    have := decidableProper rest
    inferInstanceAs (Decidable (Literal literal ∧ Named name ∧ rest.Proper))

/-- The names in the markers of a kind, first to last. -/
def names (kind : Kind) : Sheet → List (List Char)
  | last _ => []
  | marker _ other name rest => if other = kind then name :: rest.names kind else rest.names kind

/-- The text of a sheet, with `mark` for its markers. -/
def render (mark : Kind → List Char → List Char) : Sheet → List Char
  | last literal => literal
  | marker literal kind name rest => literal ++ (mark kind name ++ rest.render mark)

/-- The parts of that text for a pass that looks for markers of one kind. -/
def parts (kind : Kind) (mark : Kind → List Char → List Char) : Sheet → List Part
  | last literal => literal.map .char
  | marker literal other name rest =>
    literal.map .char ++
      ((if other = kind then [.marker name] else (mark other name).map .char) ++
        rest.parts kind mark)

end Sheet

/-- A text without one quote at its end. -/
def dropQuote (text : List Char) : List Char :=
  if text.getLast? = some '"' then text.dropLast else text

/-- A literal without the quotes that touch a definition before it or behind it. -/
def bare (before behind : Bool) (literal : List Char) : List Char :=
  let literal := if before then skipQuote literal else literal
  if behind then dropQuote literal else literal

/-- A sheet without the quotes that touch definitions; `before` tells whether one stands before
it. -/
def Sheet.bare (before : Bool) : Sheet → Sheet
  | last literal => .last (Template.bare before false literal)
  | marker literal kind name rest =>
    .marker (Template.bare before (kind = .define) literal) kind name (rest.bare (kind = .define))

variable {s : Sheet} {kind other : Kind} {word text rest name : List Char} {c : Char}
  {mark : Kind → List Char → List Char}

theorem Literal.within {part : List Char} (h : Literal text) (hpart : part <:+: text) :
    Literal part :=
  fun hopening => h (hopening.trans hpart)

theorem Sheet.mem_names_tail {literal first : List Char} (h : name ∈ s.names kind) :
    name ∈ (Sheet.marker literal other first s).names kind := by
  rw [Sheet.names]
  split
  · exact List.mem_cons_of_mem _ h
  · exact h

/-! ### Names -/

theorem afterEnd?_none (h : ∀ d ∈ (name ++ [' ']).head?, d ≠ '}') (hc : c ≠ '}') :
    afterEnd? (c :: (name ++ ' ' :: rest)) = none := by
  have hclosing : after? closing (c :: (name ++ ' ' :: rest)) = none := by
    simp [closing, after?, Ne.symm hc]
  have hspace : after? (' ' :: closing) (c :: (name ++ ' ' :: rest)) = none := by
    cases name with
    | nil => simp [closing, after?]
    | cons d name =>
      have hd : d ≠ '}' := h d (by simp)
      simp [closing, after?, Ne.symm hd]
  rw [afterEnd?, hspace, hclosing]

theorem nameFrom?_closing (h : ∀ c ∈ name, c ≠ '\n' ∧ c ≠ '{' ∧ c ≠ '}') (seen rest : List Char) :
    nameFrom? seen (name ++ (' ' :: closing ++ rest)) = some (seen.reverse ++ name, rest) := by
  induction name generalizing seen with
  | nil =>
    have hend : afterEnd? (' ' :: closing ++ rest) = some rest := by
      rw [afterEnd?, after?_append]
    simp only [List.nil_append, List.cons_append] at hend ⊢
    rw [nameFrom?, hend]
    simp
  | cons c name ih =>
    obtain ⟨⟨hfeed, -, hc⟩, hname⟩ := List.forall_mem_cons.1 h
    have hend : afterEnd? (c :: (name ++ (' ' :: closing ++ rest))) = none := by
      refine afterEnd?_none (fun d hd => ?_) hc
      cases name with
      | nil =>
        obtain rfl : ' ' = d := by simpa using hd
        decide
      | cons e name =>
        obtain rfl : e = d := by simpa using hd
        exact (hname e List.mem_cons_self).2.2
    rw [List.cons_append, nameFrom?, hend]
    simp only [if_neg hfeed]
    rw [ih hname]
    simp

theorem name?_closing (h : Named name) (rest : List Char) :
    name? (name ++ (' ' :: closing ++ rest)) = some (name, rest) := by
  obtain ⟨hne, hname⟩ := h
  obtain ⟨c, name, rfl⟩ := List.exists_cons_of_ne_nil hne
  obtain ⟨⟨hfeed, -, -⟩, htail⟩ := List.forall_mem_cons.1 hname
  rw [List.cons_append, name?, if_neg hfeed, nameFrom?_closing htail]
  rfl

theorem written_append (kind : Kind) (name rest : List Char) :
    written kind name ++ rest =
      '{' :: '{' :: ' ' :: (kind.word ++ [' '] ++ (name ++ (' ' :: closing ++ rest))) := by
  simp [written, opening]

theorem at?_written (h : Named name) (kind : Kind) (rest : List Char) :
    at? kind.word (written kind name ++ rest) = some (name, rest) := by
  have hname := name?_closing h rest
  rw [written_append]
  simp only [at?, opening, after?, if_true, Option.bind_eq_bind, Option.bind_some, skipSpace]
  rw [after?_append, Option.bind_some, hname]

/-- A marker of another kind is passed over. -/
theorem at?_other (h : other ≠ kind) (name rest : List Char) :
    at? kind.word (written other name ++ rest) = none := by
  have hword : ∀ cs, after? (kind.word ++ [' ']) (other.word ++ [' '] ++ cs) = none := by
    intro cs
    cases kind <;> cases other <;> first | exact absurd rfl h | rfl
  rw [written_append]
  simp only [at?, opening, after?, if_true, Option.bind_eq_bind, Option.bind_some, skipSpace, hword,
    Option.bind_none]

/-! ### Texts without markers -/

theorem word_ne_nil (kind : Kind) : kind.word ≠ [] := by
  cases kind <;> exact List.cons_ne_nil _ _

theorem head?_word (kind : Kind) (h : c = '{' ∨ c = '\n') : kind.word.head? ≠ some c := by
  rcases h with rfl | rfl <;> cases kind <;> decide

/-- Where no brace stands no marker begins. -/
theorem at?_none_of_not_mem (h : '{' ∉ text) {cs : List Char} (hsuffix : c :: cs <:+ text)
    (rest : List Char) : at? word (c :: (cs ++ rest)) = none := by
  refine at?_of_ne fun hc => h ?_
  exact hsuffix.subset (hc ▸ List.mem_cons_self)

/-- A text that a pass leaves alone, also behind a brace. -/
structure Still (kind : Kind) (text : List Char) : Prop where
  inside : ∀ c cs, c :: cs <:+ text → ∀ rest, at? kind.word (c :: (cs ++ rest)) = none
  behind : ∀ rest, at? kind.word ('{' :: (text ++ rest)) = none

/-- A text that stands in for a marker: at most one brace, alone on the first of several lines. -/
def Value (text : List Char) : Prop :=
  (text ≠ [] ∧ '{' ∉ text) ∨ ∃ body, text = '{' :: '\n' :: body ∧ '{' ∉ body

theorem Value.still (h : Value text) (kind : Kind) : Still kind text := by
  rcases h with ⟨hne, hbrace⟩ | ⟨body, rfl, hbody⟩
  · refine ⟨fun c cs hsuffix => at?_none_of_not_mem hbrace hsuffix, fun rest => at?_brace ?_⟩
    obtain ⟨c, text, rfl⟩ := List.exists_cons_of_ne_nil hne
    have hc : '{' ≠ c := List.ne_of_not_mem_cons hbrace
    simpa using Ne.symm hc
  · have htail : '{' ∉ '\n' :: body := List.not_mem_cons_of_ne_of_not_mem (by decide) hbody
    refine ⟨fun c cs hsuffix rest => ?_, fun rest => ?_⟩
    · rcases List.suffix_cons_iff.1 hsuffix with hwhole | hsuffix
      · obtain ⟨rfl, rfl⟩ := List.cons.inj hwhole
        exact at?_brace (by simp)
      · exact at?_none_of_not_mem htail hsuffix rest
    · exact at?_braces (by decide) (head?_word kind (Or.inr rfl)) (word_ne_nil kind)

theorem brace_not_mem_word (kind : Kind) : '{' ∉ kind.word := by
  cases kind <;> decide

theorem at?_behind_written (kind other : Kind) (name rest : List Char) :
    at? kind.word ('{' :: (written other name ++ rest)) = none := by
  rw [written_append]
  exact at?_braces (by decide) (head?_word kind (Or.inl rfl)) (word_ne_nil kind)

theorem still_written (h : other ≠ kind) (hname : Named name) :
    Still kind (written other name) := by
  refine ⟨fun c cs hsuffix rest => ?_, at?_behind_written kind other name⟩
  have hbody : '{' ∉ ' ' :: (other.word ++ ' ' :: (name ++ ' ' :: closing)) := by
    have hmem : '{' ∉ name := fun hmem => (hname.2 _ hmem).2.1 rfl
    simp [closing, hmem, brace_not_mem_word]
  rcases List.suffix_cons_iff.1 hsuffix with hwhole | hsuffix
  · rw [← List.cons_append, hwhole]
    exact at?_other h name rest
  rcases List.suffix_cons_iff.1 hsuffix with hwhole | hsuffix
  · obtain ⟨rfl, rfl⟩ := List.cons.inj hwhole
    exact at?_brace (by simp)
  · exact at?_none_of_not_mem hbody hsuffix rest

/-- In a literal no marker begins, unless its last brace and what follows make one. -/
theorem at?_literal (h : Literal text) (hrest : at? word ('{' :: rest) = none) {cs : List Char}
    (hsuffix : c :: cs <:+ text) : at? word (c :: (cs ++ rest)) = none := by
  by_cases hc : c = '{'
  · subst hc
    cases cs with
    | nil => exact hrest
    | cons d cs =>
      refine at?_brace fun hd => h ?_
      obtain rfl : d = '{' := by simpa using hd
      exact List.IsInfix.trans (List.prefix_append opening cs).isInfix hsuffix.isInfix
  · exact at?_of_ne hc

/-! ### Passes over a sheet -/

/-- For a pass of one kind: its own markers are as written, and the pass leaves the others alone. -/
structure Ready (kind : Kind) (mark : Kind → List Char → List Char) (s : Sheet) : Prop where
  own : ∀ name, mark kind name = written kind name
  others : ∀ other ≠ kind, ∀ name ∈ s.names other, Still kind (mark other name)

theorem Ready.tail {literal : List Char} (h : Ready kind mark (.marker literal other name s)) :
    Ready kind mark s := by
  exact ⟨h.own, fun other hother name hname =>
    h.others other hother name (Sheet.mem_names_tail hname)⟩

theorem parts_written (h : Named name) (kind : Kind) (rest : List Char) :
    Marker.parts (at? kind.word) (written kind name ++ rest) =
      .marker name :: Marker.parts (at? kind.word) rest := by
  obtain ⟨tail, htail⟩ : ∃ tail, written kind name = '{' :: tail := ⟨_, rfl⟩
  have hat := at?_written h kind rest
  rw [htail, List.cons_append] at hat ⊢
  exact parts_marker hat (List.suffix_append tail rest)

/-- A pass finds the markers of its kind and nothing else. -/
theorem parts_render (hs : s.Proper) (h : Ready kind mark s) :
    Marker.parts (at? kind.word) (s.render mark) = s.parts kind mark := by
  induction s with
  | last literal =>
    have hliteral : Marker.parts (at? kind.word) (literal ++ []) =
        literal.map .char ++ Marker.parts (at? kind.word) [] :=
      parts_append fun c cs => at?_literal hs rfl
    rwa [List.append_nil, parts_nil, List.append_nil] at hliteral
  | marker literal other name s ih =>
    obtain ⟨hliteral, hname, hproper⟩ := hs
    have hrest := ih hproper h.tail
    by_cases hother : other = kind
    · subst hother
      rw [Sheet.render, Sheet.parts, if_pos rfl, h.own]
      have hbehind := at?_behind_written other other name (s.render mark)
      rw [parts_append fun c cs => at?_literal hliteral hbehind, parts_written hname, hrest]
      rfl
    · have hstill : Still kind (mark other name) :=
        h.others other hother name (by simp [Sheet.names])
      rw [Sheet.render, Sheet.parts, if_neg hother,
        parts_append fun c cs => at?_literal hliteral (hstill.behind _),
        parts_append fun c cs hsuffix => hstill.inside c cs hsuffix _, hrest]

theorem names_parts (s : Sheet) : Marker.names (s.parts kind mark) = s.names kind := by
  induction s with
  | last literal => exact names_chars literal
  | marker literal other name s ih =>
    rw [Sheet.parts, Sheet.names, names_append, names_append, names_chars, ih]
    split
    · rfl
    · rw [names_chars]
      rfl

theorem flatMap_fill_chars (given : List Char → List Char) (text : List Char) :
    (text.map Part.char).flatMap (Part.fill given) = text := by
  induction text with
  | nil => rfl
  | cons c text ih => exact congrArg (c :: ·) ih

theorem flatMap_fill_parts (given : List Char → List Char) (s : Sheet) :
    (s.parts kind mark).flatMap (Part.fill given) = s.render (Function.update mark kind given) := by
  induction s with
  | last literal => exact flatMap_fill_chars given literal
  | marker literal other name s ih =>
    rw [Sheet.parts, Sheet.render, List.flatMap_append, List.flatMap_append, flatMap_fill_chars, ih]
    by_cases hother : other = kind
    · subst hother
      simp [Part.fill]
    · rw [if_neg hother, flatMap_fill_chars, Function.update_of_ne hother]

/-! ### Quotes around definitions -/

theorem dropQuote_cons_cons (c d : Char) (text : List Char) :
    dropQuote (c :: d :: text) = c :: dropQuote (d :: text) := by
  rw [dropQuote, dropQuote, List.getLast?_cons_cons]
  split <;> rfl

/-- Among characters only a quote right before a marker is left out. -/
theorem unquote_chars (text : List Char) (ps : List Part) :
    unquote false (text.map .char ++ ps) =
      (if marked ps then dropQuote text else text).map .char ++ unquote false ps := by
  induction text with
  | nil => simp [dropQuote]
  | cons c text ih =>
    cases text with
    | nil =>
      by_cases hc : c = '"'
      · subst hc
        cases hps : marked ps <;> simp [unquote, hps, dropQuote]
      · simp [unquote_char hc, dropQuote, hc]
    | cons d text =>
      have hmarked : marked ((d :: text).map .char ++ ps) = false := rfl
      rw [List.map_cons, List.cons_append, unquote, hmarked, if_neg (by simp), ih,
        dropQuote_cons_cons]
      split <;> rfl

/-- Right behind a definition a quote is left out as well. -/
theorem unquote_literal (before : Bool) (literal : List Char) {ps : List Part}
    (hps : unquote true ps = unquote false ps) :
    unquote before (literal.map .char ++ ps) =
      (bare before (marked ps) literal).map .char ++ unquote false ps := by
  have hskip : unquote before (literal.map .char ++ ps) =
      unquote false ((if before then skipQuote literal else literal).map .char ++ ps) := by
    cases before with
    | false => rfl
    | true =>
      cases literal with
      | nil => exact hps
      | cons c literal =>
        by_cases hc : c = '"'
        · subst hc
          simp [unquote, skipQuote]
        · simp [skipQuote_of_ne hc, unquote_char hc]
  rw [hskip, unquote_chars]
  rfl

/-- A text that no quote of a definition belongs to. -/
structure Firm (text : List Char) : Prop where
  ne_nil : text ≠ []
  first : text.head? ≠ some '"'
  last : text.getLast? ≠ some '"'

theorem unquote_firm (h : Firm text) (before : Bool) (ps : List Part) :
    unquote before (text.map .char ++ ps) = text.map .char ++ unquote false ps := by
  obtain ⟨c, tail, rfl⟩ := List.exists_cons_of_ne_nil h.ne_nil
  have hc : c ≠ '"' := by simpa using h.first
  have hfalse : unquote before ((c :: tail).map .char ++ ps) =
      unquote false ((c :: tail).map .char ++ ps) := by
    rw [List.map_cons, List.cons_append, unquote_char hc, unquote_char hc]
  rw [hfalse, unquote_chars, dropQuote, if_neg h.last, ite_self]

theorem marked_firm (h : Firm text) (ps : List Part) : marked (text.map .char ++ ps) = false := by
  obtain ⟨c, tail, rfl⟩ := List.exists_cons_of_ne_nil h.ne_nil
  rfl

/-- The quotes that touch markers are those that touch definitions. -/
theorem unquote_parts (before : Bool) (s : Sheet)
    (h : ∀ other ≠ .define, ∀ name ∈ s.names other, Firm (mark other name)) :
    unquote before (s.parts .define mark) = (s.bare before).parts .define mark := by
  induction s generalizing before with
  | last literal =>
    have hliteral : unquote before (literal.map .char ++ []) =
        (bare before (marked []) literal).map .char ++ unquote false [] :=
      unquote_literal before literal rfl
    simpa [Sheet.parts, Sheet.bare, unquote, marked] using hliteral
  | marker literal kind name s ih =>
    have htail : ∀ other ≠ .define, ∀ name ∈ s.names other, Firm (mark other name) :=
      fun other hother n hn => h other hother n (Sheet.mem_names_tail hn)
    by_cases hkind : kind = .define
    · subst hkind
      rw [Sheet.parts, Sheet.bare, Sheet.parts, if_pos rfl, unquote_literal before literal rfl]
      simp [marked, unquote, ih true htail, Part.name?]
    · have hfirm : Firm (mark kind name) := h kind hkind name (by simp [Sheet.names])
      have hmarked : marked ((mark kind name).map .char ++ s.parts .define mark) = false :=
        marked_firm hfirm _
      have hflag : unquote true ((mark kind name).map .char ++ s.parts .define mark) =
          unquote false ((mark kind name).map .char ++ s.parts .define mark) := by
        rw [unquote_firm hfirm, unquote_firm hfirm]
      rw [Sheet.parts, Sheet.bare, Sheet.parts, if_neg hkind,
        unquote_literal before literal hflag, hmarked,
        unquote_firm hfirm, ih false htail, decide_eq_false hkind]

end ScriptProbe.Template
