import ScriptProbe.Fixture.Marker

/-! Where markers stand in a text, and what comes of the text when they are filled in. -/
namespace ScriptProbe.Marker

open ScriptProbe.Text

variable {find : List Char → Option (List Char × List Char)}
    {word name cs text rest seen : List Char}
  {c : Char} {ps : List Part}

/-! ### Parts -/

theorem partsFrom_eq (find : List Char → Option (List Char × List Char)) (seen : List Part)
    (skip : Nat) (cs : List Char) :
    partsFrom find seen skip cs = seen.reverse ++ partsFrom find [] skip cs := by
  induction cs generalizing seen skip with
  | nil => cases skip <;> simp [partsFrom]
  | cons c cs ih =>
    cases skip with
    | succ skip => exact ih seen skip
    | zero =>
      cases h : find (c :: cs) with
      | none =>
        simp only [partsFrom, h]
        rw [ih (.char c :: seen), ih [.char c]]
        simp
      | some found =>
        simp only [partsFrom, h]
        rw [ih (.marker found.1 :: seen), ih [.marker found.1]]
        simp

theorem parts_nil : parts find [] = [] := rfl

theorem parts_char (h : find (c :: cs) = none) :
    parts find (c :: cs) = .char c :: parts find cs := by
  simp only [parts, partsFrom, h]
  exact partsFrom_eq find [.char c] 0 cs

theorem partsFrom_skip (seen : List Part) (passed rest : List Char) :
    partsFrom find seen passed.length (passed ++ rest) = partsFrom find seen 0 rest := by
  induction passed with
  | nil => rfl
  | cons c passed ih => exact ih

theorem parts_marker (h : find (c :: cs) = some (name, rest)) (hrest : rest <:+ cs) :
    parts find (c :: cs) = .marker name :: parts find rest := by
  obtain ⟨passed, rfl⟩ := hrest
  have hskip : (passed ++ rest).length - rest.length = passed.length := by simp
  simp only [parts, partsFrom, h, hskip, partsFrom_skip]
  exact partsFrom_eq find [.marker name] 0 rest

/-- A text in which no marker begins is a part by its characters. -/
theorem parts_append (h : ∀ c cs, c :: cs <:+ text → find (c :: (cs ++ rest)) = none) :
    parts find (text ++ rest) = text.map .char ++ parts find rest := by
  induction text with
  | nil => rfl
  | cons c text ih =>
    have htail := ih fun d ds hds => h d ds (hds.trans (List.suffix_cons c text))
    rw [List.cons_append, parts_char (h c text List.suffix_rfl), htail]
    rfl

theorem names_append (ps qs : List Part) : names (ps ++ qs) = names ps ++ names qs :=
  List.filterMap_append

theorem names_chars (text : List Char) : names (text.map .char) = [] := by
  induction text with
  | nil => rfl
  | cons c text ih => exact ih

theorem exists_marker_of_mem (h : name ∈ names ps) :
    ∃ front behind, ps = front ++ .marker name :: behind := by
  obtain ⟨p, hp, hname⟩ := List.mem_filterMap.1 h
  cases p with
  | char c => cases hname
  | marker other =>
    obtain rfl := Option.some.inj hname
    exact List.append_of_mem hp

/-! ### Fills -/

/-- The text of a part, with `value` for the text of a marker. -/
def Part.fill (value : List Char → List Char) : Part → List Char
  | .char c => [c]
  | .marker name => value name

variable {ε : Type} {value : List Char → Except ε (List Char)} {given : List Char → List Char}

theorem fillFrom_eq_ok (seen : List Char) (h : ∀ name ∈ names ps, value name = .ok (given name)) :
    fillFrom value seen ps = .ok (seen.reverse ++ ps.flatMap (Part.fill given)) := by
  induction ps generalizing seen with
  | nil => simp [fillFrom]
  | cons p ps ih =>
    cases p with
    | char c =>
      rw [fillFrom, ih (c :: seen) h]
      simp [Part.fill]
    | marker name =>
      have hname := h name (by simp [names, Part.name?])
      rw [fillFrom, hname]
      refine (ih _ fun n hn => h n ?_).trans (by simp [Part.fill])
      exact List.mem_cons_of_mem _ hn

theorem fill_eq_ok (h : ∀ name ∈ names ps, value name = .ok (given name)) :
    fill value ps = .ok (ps.flatMap (Part.fill given)) := fillFrom_eq_ok [] h

/-- A text is filled in only if there is a value for every name in it. -/
theorem value_of_fillFrom (h : fillFrom value seen ps = .ok text) (hname : name ∈ names ps) :
    ∃ given, value name = .ok given := by
  induction ps generalizing seen with
  | nil => simp [names] at hname
  | cons p ps ih =>
    cases p with
    | char c => exact ih h hname
    | marker other =>
      cases hother : value other with
      | error e => simp [fillFrom, hother] at h
      | ok given =>
        rw [fillFrom, hother] at h
        rcases List.mem_cons.1 hname with rfl | hname
        · exact ⟨given, hother⟩
        · exact ih h hname

theorem value_of_fill (h : fill value ps = .ok text) (hname : name ∈ names ps) :
    ∃ given, value name = .ok given := value_of_fillFrom h hname

/-! ### Where markers stand -/

theorem at?_of_ne (h : c ≠ '{') : at? word (c :: cs) = none := by
  simp [at?, opening, after?, Ne.symm h]

theorem at?_brace (h : cs.head? ≠ some '{') : at? word ('{' :: cs) = none := by
  cases cs with
  | nil => rfl
  | cons c cs =>
    have hc : c ≠ '{' := fun hc => h (by simp [hc])
    simp [at?, opening, after?, Ne.symm hc]

theorem skipSpace_of_ne (h : c ≠ ' ') : skipSpace (c :: cs) = c :: cs := by
  unfold skipSpace
  split
  · next heq => exact absurd (List.cons.inj heq).1 h
  · rfl

theorem at?_braces (hspace : c ≠ ' ') (hword : word.head? ≠ some c) (hne : word ≠ []) :
    at? word ('{' :: '{' :: c :: cs) = none := by
  obtain ⟨d, word, rfl⟩ := List.exists_cons_of_ne_nil hne
  have hd : d ≠ c := fun hd => hword (by simp [hd])
  simp [at?, opening, after?, skipSpace_of_ne hspace, hd]

theorem skipSpace_suffix (cs : List Char) : skipSpace cs <:+ cs := by
  unfold skipSpace
  split
  · exact List.suffix_cons _ _
  · exact List.suffix_rfl

theorem skipQuote_suffix (cs : List Char) : skipQuote cs <:+ cs := by
  unfold skipQuote
  split
  · exact List.suffix_cons _ _
  · exact List.suffix_rfl

theorem after?_suffix {lead : List Char} (h : after? lead cs = some rest) : rest <:+ cs :=
  ⟨lead, (eq_append_of_after? h).symm⟩

theorem nameFrom?_suffix (h : nameFrom? seen cs = some (name, rest)) : rest <:+ cs := by
  induction cs generalizing seen with
  | nil => simp [nameFrom?] at h
  | cons c cs ih =>
    unfold nameFrom? at h
    split at h
    · next after hend =>
      obtain ⟨-, rfl⟩ := Prod.mk.inj (Option.some.inj h)
      unfold afterEnd? at hend
      split at hend
      · next hspace => exact Option.some.inj hend ▸ after?_suffix hspace
      · exact after?_suffix hend
    · split at h
      · cases h
      · exact (ih h).trans (List.suffix_cons c cs)

theorem name?_suffix (h : name? cs = some (name, rest)) : rest <:+ cs := by
  cases cs with
  | nil => simp [name?] at h
  | cons c cs =>
    rw [name?] at h
    split at h
    · cases h
    · exact (nameFrom?_suffix h).trans (List.suffix_cons c cs)

/-- A marker begins with a brace, and what follows it is less than what follows the brace. -/
theorem at?_eq_some (h : at? word cs = some (name, rest)) : ∃ ds, cs = '{' :: ds ∧ rest <:+ ds := by
  unfold at? at h
  cases hopen : after? opening cs with
  | none => simp [hopen] at h
  | some ds =>
    obtain rfl := eq_append_of_after? hopen
    cases hword : after? (word ++ [' ']) (skipSpace ds) with
    | none => simp [hopen, hword] at h
    | some es =>
      simp only [hopen, hword, Option.bind_eq_bind, Option.bind_some] at h
      have hes := (name?_suffix h).trans ((after?_suffix hword).trans (skipSpace_suffix ds))
      exact ⟨'{' :: ds, rfl, hes.trans (List.suffix_cons '{' ds)⟩

theorem at?_suffix (h : at? word (c :: cs) = some (name, rest)) : rest <:+ cs := by
  obtain ⟨ds, hds, hrest⟩ := at?_eq_some h
  obtain ⟨-, rfl⟩ := List.cons.inj hds
  exact hrest

/-- Induction along the scan of a text, which goes on behind every marker. -/
theorem find_induction {motive : List Char → Prop}
    (hfind : ∀ {c cs name rest}, find (c :: cs) = some (name, rest) → rest <:+ cs) (nil : motive [])
    (char : ∀ c cs, find (c :: cs) = none → motive cs → motive (c :: cs))
    (marker : ∀ c cs name rest, find (c :: cs) = some (name, rest) → rest <:+ cs → motive rest →
      motive (c :: cs)) (cs : List Char) : motive cs := by
  induction hn : cs.length using Nat.strongRecOn generalizing cs with
  | ind n ih =>
    cases cs with
    | nil => exact nil
    | cons c cs =>
      have hshort : ∀ ds, ds <:+ cs → motive ds := by
        intro ds hds
        refine ih ds.length ?_ ds rfl
        rw [← hn, List.length_cons]
        exact Nat.lt_succ_of_le hds.length_le
      cases hat : find (c :: cs) with
      | none => exact char c cs hat (hshort cs List.suffix_rfl)
      | some found => exact marker c cs found.1 found.2 hat (hfind hat) (hshort found.2 (hfind hat))

/-- A marker begins with a brace. -/
theorem scan_induction {motive : List Char → Prop} (word : List Char) (nil : motive [])
    (char : ∀ c cs, at? word (c :: cs) = none → motive cs → motive (c :: cs))
    (marker : ∀ cs name rest, at? word ('{' :: cs) = some (name, rest) → rest <:+ cs → motive rest →
      motive ('{' :: cs)) (cs : List Char) : motive cs := by
  refine find_induction at?_suffix nil char ?_ cs
  intro c cs name rest hat hrest ih
  obtain ⟨ds, hds, -⟩ := at?_eq_some hat
  obtain ⟨rfl, rfl⟩ := List.cons.inj hds
  exact marker cs name rest hat hrest ih

/-! ### Breaks -/

/-- A brace that ends its line, and what follows it. -/
def broken (rest : List Char) : List Char := '{' :: '\n' :: rest

theorem after?_broken {lead : List Char} (h : '{' ∉ lead) (cs rest : List Char) :
    after? lead (cs ++ broken rest) = (after? lead cs).map (· ++ broken rest) := by
  induction lead generalizing cs with
  | nil => rfl
  | cons l lead ih =>
    have hl : l ≠ '{' := Ne.symm (List.ne_of_not_mem_cons h)
    cases cs with
    | nil => simp [broken, after?, hl]
    | cons c cs =>
      rw [List.cons_append, after?, after?]
      split
      · exact ih (List.not_mem_of_not_mem_cons h) cs
      · rfl

theorem afterEnd?_broken (cs rest : List Char) :
    afterEnd? (cs ++ broken rest) = (afterEnd? cs).map (· ++ broken rest) := by
  rw [afterEnd?, afterEnd?, after?_broken (by decide), after?_broken (by decide)]
  cases after? (' ' :: closing) cs <;> rfl

/-- A name ends before a break or not at all. -/
theorem nameFrom?_broken (seen cs rest : List Char) :
    nameFrom? seen (cs ++ broken rest) =
      (nameFrom? seen cs).map fun (name, behind) => (name, behind ++ broken rest) := by
  induction cs generalizing seen with
  | nil =>
    have hend : afterEnd? (broken rest) = none := afterEnd?_broken [] rest
    have hfeed : afterEnd? ('\n' :: rest) = none := by simp [afterEnd?, closing, after?]
    simp only [List.nil_append, broken] at hend ⊢
    simp [nameFrom?, hend, hfeed]
  | cons c cs ih =>
    have hend := afterEnd?_broken (c :: cs) rest
    rw [List.cons_append] at hend ⊢
    rw [nameFrom?, nameFrom?, hend, ih]
    cases afterEnd? (c :: cs) with
    | some behind => rfl
    | none => by_cases hc : c = '\n' <;> simp [hc]

theorem name?_broken (cs rest : List Char) :
    name? (cs ++ broken rest) = (name? cs).map fun (name, behind) =>
      (name, behind ++ broken rest) := by
  cases cs with
  | nil => exact nameFrom?_broken [] [] rest
  | cons c cs =>
    rw [List.cons_append, name?, name?, nameFrom?_broken]
    split <;> rfl

theorem skipSpace_broken (cs rest : List Char) :
    skipSpace (cs ++ broken rest) = skipSpace cs ++ broken rest := by
  cases cs with
  | nil => rfl
  | cons c cs =>
    by_cases hc : c = ' '
    · rw [hc]
      rfl
    · rw [List.cons_append, skipSpace_of_ne hc, skipSpace_of_ne hc, List.cons_append]

/-- No marker goes across a break. -/
theorem at?_broken (hword : '{' ∉ word) (hfeed : word.head? ≠ some '\n')
    (hne : word ≠ []) (c : Char) (cs rest : List Char) :
    at? word (c :: (cs ++ broken rest)) =
      (at? word (c :: cs)).map fun (name, behind) => (name, behind ++ broken rest) := by
  by_cases hc : c = '{'
  · subst hc
    cases cs with
    | nil => exact at?_braces (by decide) hfeed hne
    | cons d cs =>
      by_cases hd : d = '{'
      · subst hd
        have hlead : '{' ∉ word ++ [' '] := by simp [hword]
        simp only [at?, opening, after?, if_true, List.cons_append, Option.bind_eq_bind,
          Option.bind_some, skipSpace_broken, after?_broken hlead]
        cases after? (word ++ [' ']) (skipSpace cs) with
        | none => rfl
        | some ds => exact name?_broken ds rest
      · rw [at?_brace (by simpa using hd), at?_brace (by simpa using hd)]
        rfl
  · rw [at?_of_ne hc, at?_of_ne hc]
    rfl

theorem parts_broken (hword : '{' ∉ word) (hfeed : word.head? ≠ some '\n') (hne : word ≠ [])
    (cs rest : List Char) :
    parts (at? word) (cs ++ broken rest) =
      parts (at? word) cs ++ parts (at? word) (broken rest) := by
  induction cs using scan_induction word with
  | nil => rfl
  | char c cs hat ih =>
    have hbroken := at?_broken hword hfeed hne c cs rest
    rw [hat] at hbroken
    rw [List.cons_append, parts_char hbroken, parts_char hat, ih, List.cons_append]
  | marker cs name behind hat hbehind ih =>
    have hbroken := at?_broken hword hfeed hne '{' cs rest
    have hsuffix : behind ++ broken rest <:+ cs ++ broken rest := by
      obtain ⟨passed, rfl⟩ := hbehind
      exact ⟨passed, (List.append_assoc passed behind (broken rest)).symm⟩
    rw [hat] at hbroken
    rw [List.cons_append, parts_marker hbroken hsuffix, parts_marker hat hbehind, ih,
      List.cons_append]

/-! ### Quotes -/

/-- Whether a marker comes first. -/
def marked (ps : List Part) : Bool := ps.head?.any fun p => p.name?.isSome

/-- Parts without the quotes that touch a marker; `after` tells whether a marker stands before
them. -/
def unquote (after : Bool) : List Part → List Part
  | [] => []
  | .marker name :: ps => .marker name :: unquote true ps
  | .char c :: ps =>
    if c = '"' ∧ (after = true ∨ marked ps = true) then unquote false ps
    else .char c :: unquote false ps

theorem names_unquote (after : Bool) (ps : List Part) : names (unquote after ps) = names ps := by
  induction ps generalizing after with
  | nil => rfl
  | cons p ps ih =>
    cases p with
    | marker name => exact congrArg (name :: ·) (ih true)
    | char c =>
      rw [unquote]
      split <;> exact ih false

theorem unquote_char (h : c ≠ '"') (after : Bool) :
    unquote after (.char c :: ps) = .char c :: unquote false ps := by
  rw [unquote, if_neg fun hc => h hc.1]

theorem skipQuote_of_ne (h : c ≠ '"') : skipQuote (c :: cs) = c :: cs := by
  unfold skipQuote
  split
  · next heq => exact absurd (List.cons.inj heq).1 h
  · rfl

theorem quotedAt?_of_ne (h : c ≠ '"') :
    quotedAt? word (c :: cs) = (at? word (c :: cs)).map fun (name, rest) =>
      (name, skipQuote rest) := by
  rw [quotedAt?, skipQuote_of_ne h]

theorem marked_eq_false (h : at? word cs = none) : marked (parts (at? word) cs) = false := by
  cases cs with
  | nil => rfl
  | cons c cs =>
    rw [parts_char h]
    rfl

theorem quotedAt?_eq_some (h : at? word ('{' :: cs) = some (name, rest)) :
    quotedAt? word ('{' :: cs) = some (name, skipQuote rest) := by
  rw [quotedAt?_of_ne (by decide), h]
  rfl

/-- A quote belongs to the marker that follows it, if one does. -/
theorem parts_quote (word cs : List Char) :
    parts (quotedAt? word) ('"' :: cs) =
      if marked (parts (at? word) cs) then parts (quotedAt? word) cs
      else .char '"' :: parts (quotedAt? word) cs := by
  cases hat : at? word cs with
  | none =>
    have hquoted : quotedAt? word ('"' :: cs) = none := by simp [quotedAt?, skipQuote, hat]
    rw [parts_char hquoted, if_neg (by simp [marked_eq_false hat])]
  | some found =>
    obtain ⟨name, rest⟩ := found
    obtain ⟨ds, rfl, hrest⟩ := at?_eq_some hat
    have hbehind : skipQuote rest <:+ ds := (skipQuote_suffix rest).trans hrest
    have hquoted : quotedAt? word ('"' :: '{' :: ds) = some (name, skipQuote rest) := by
      simp [quotedAt?, skipQuote, hat]
    rw [parts_marker hquoted (hbehind.trans (List.suffix_cons '{' ds)), parts_marker hat hrest,
      parts_marker (quotedAt?_eq_some hat) hbehind]
    rfl

theorem unquote_quote (ps : List Part) :
    unquote false (.char '"' :: ps) =
      if marked ps then unquote false ps else .char '"' :: unquote false ps := by
  rw [unquote]
  simp

/-- With quotes or without, the same markers are found; only the quotes that touch them are left
out. The second part is for what follows a marker, where one quote has been passed over. -/
theorem parts_quotes (word cs : List Char) :
    parts (quotedAt? word) cs = unquote false (parts (at? word) cs) ∧
      parts (quotedAt? word) (skipQuote cs) = unquote true (parts (at? word) cs) := by
  induction cs using scan_induction word with
  | nil => exact ⟨rfl, rfl⟩
  | char c cs hat ih =>
    by_cases hc : c = '"'
    · subst hc
      rw [parts_char hat]
      constructor
      · rw [parts_quote, ih.1, unquote_quote]
      · rw [unquote, if_pos ⟨rfl, Or.inl rfl⟩]
        exact ih.1
    · have hquoted : quotedAt? word (c :: cs) = none := by simp [quotedAt?_of_ne hc, hat]
      rw [skipQuote_of_ne hc, parts_char hquoted, parts_char hat, unquote_char hc,
        unquote_char hc, ih.1]
      exact ⟨rfl, rfl⟩
  | marker cs name rest hat hrest ih =>
    have hbehind : skipQuote rest <:+ cs := (skipQuote_suffix rest).trans hrest
    rw [skipQuote_of_ne (by decide), parts_marker (quotedAt?_eq_some hat) hbehind,
      parts_marker hat hrest, ih.2]
    exact ⟨rfl, rfl⟩

theorem parts_quotedAt? (word cs : List Char) :
    parts (quotedAt? word) cs = unquote false (parts (at? word) cs) := (parts_quotes word cs).1

/-! ### Texts without an opening -/

theorem hasOpening_iff : hasOpening cs = true ↔ opening <:+: cs := by
  induction cs with
  | nil => simp [hasOpening, opening]
  | cons c cs ih =>
    have hfront : (after? opening (c :: cs)).isSome = true ↔ opening <+: c :: cs := by
      rw [Option.isSome_iff_exists]
      exact exists_congr fun rest => after?_eq_some_iff.trans eq_comm
    rw [hasOpening, Bool.or_eq_true, hfront, ih, List.infix_cons_iff]

theorem at?_eq_none (h : ¬opening <:+: cs) : at? word cs = none := by
  have hafter : after? opening cs = none := by
    rw [Option.eq_none_iff_forall_ne_some]
    intro rest hrest
    exact h ⟨[], rest, (eq_append_of_after? hrest).symm⟩
  simp [at?, hafter]

theorem quotedAt?_eq_none (h : ¬opening <:+: cs) : quotedAt? word cs = none := by
  rw [quotedAt?, at?_eq_none fun hbehind => h (hbehind.trans (skipQuote_suffix cs).isInfix)]
  rfl

/-- A text that is read by its characters alone. -/
theorem parts_eq_chars (h : ∀ ds, ds <:+ cs → find ds = none) : parts find cs = cs.map .char := by
  have hparts : parts find (cs ++ []) = cs.map .char ++ parts find [] :=
    parts_append fun c ds hds => by simpa using h _ hds
  simpa [parts_nil] using hparts

theorem fill_chars (text : List Char) : fill value (text.map .char) = .ok text := by
  have hfill : fill value (text.map .char) = .ok ((text.map .char).flatMap (Part.fill id)) :=
    fill_eq_ok (by simp [names_chars])
  rw [hfill]
  simp [List.flatMap_map, Part.fill]

end ScriptProbe.Marker
