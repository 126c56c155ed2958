import ScriptProbe.Proofs.Fixture.Sheet
import ScriptProbe.Proofs.Fixture.Template
import ScriptProbe.Proofs.Json.Brace

/-! The five passes over a sheet come to one substitution of its markers. -/
namespace ScriptProbe.Template

open ScriptProbe.Text Marker

variable {w : World} {path root : Path} {s : Sheet} {kind other : Kind}
    {text name : List Char} {c : Char}
  {mark : Kind → List Char → List Char}

/-! ### What stands in for a marker -/

/-- What a file holds, if it can be read. -/
def content (w : World) (root : Path) (name : List Char) : List UInt8 :=
  match w.read (root.join (.ofText (String.ofList name))) with
  | .ok bytes => bytes
  | .error _ => []

def standIn (w : World) (root : Path) : Kind → List Char → List Char
  | .data, name => Hex.encode (content w root name)
  | .hash, name => Hex.encode (chainHash (content w root name)).bytes
  | .define, name => typeIdText name
  | .refer, name => Hex.encode (TypeId.script name).hash.bytes

theorem value_encode {bytes : List UInt8} (h : bytes ≠ []) : Value (Hex.encode bytes) :=
  Or.inl ⟨Hex.encode_ne_nil h, Hex.not_mem_encode rfl bytes⟩

theorem firm_of_not_mem (hne : text ≠ []) (h : '"' ∉ text) : Firm text :=
  ⟨hne, fun hfirst => h (List.mem_of_head? hfirst), fun hlast => h (List.mem_of_getLast? hlast)⟩

theorem firm_encode {bytes : List UInt8} (h : bytes ≠ []) : Firm (Hex.encode bytes) :=
  firm_of_not_mem (Hex.encode_ne_nil h) (Hex.not_mem_encode rfl bytes)

theorem firm_written (kind : Kind) (name : List Char) : Firm (written kind name) := by
  refine ⟨List.cons_ne_nil _ _, by simp [written, opening], ?_⟩
  have hclosing : written kind name =
      (opening ++ ' ' :: (kind.word ++ ' ' :: (name ++ [' ', '}']))) ++ ['}'] := by
    simp [written, closing]
  rw [hclosing, List.getLast?_concat]
  decide

theorem brace_not_mem_prefixed (bytes : List UInt8) : '{' ∉ Json.strText (Hex.prefixed bytes) := by
  refine Json.brace_not_mem_strText ?_
  simp [Hex.prefixed, Hex.not_mem_encode (c := '{') rfl bytes]

theorem typeIdText_eq_broken (name : List Char) :
    ∃ body, typeIdText name = broken body ∧ '{' ∉ body := by
  have hcode := brace_not_mem_prefixed TypeId.codeHash.bytes
  have hargs := brace_not_mem_prefixed (Utf8.encode name)
  have hkeys : '{' ∉ Json.strText "code_hash" ∧ '{' ∉ Json.strText "hash_type" ∧
      '{' ∉ Json.strText "args" ∧ '{' ∉ Json.strText HashType.type.name := by decide
  have hindent : '{' ∉ Json.newline 1 ∧ '{' ∉ Json.newline 0 := by decide
  refine ⟨_, rfl, ?_⟩
  change '{' ∉ ' ' :: ' ' :: (Json.joinWith (',' :: Json.newline 1)
    [Json.strText "code_hash" ++ ':' :: ' ' :: Json.strText (Hex.prefixed TypeId.codeHash.bytes),
      Json.strText "hash_type" ++ ':' :: ' ' :: Json.strText HashType.type.name,
      Json.strText "args" ++ ':' :: ' ' :: Json.strText (Hex.prefixed (Utf8.encode name))]) ++
      Json.newline 0 ++ ['}']
  simp only [Json.joinWith, List.mem_append, List.mem_cons, List.not_mem_nil, hcode, hargs,
    hkeys, hindent, or_false, false_or]
  decide

theorem value_typeIdText (name : List Char) : Value (typeIdText name) :=
  Or.inr (typeIdText_eq_broken name)

/-! ### Stages -/

def Readable (w : World) (root : Path) (name : List Char) : Prop :=
  ∃ bytes, w.read (root.join (.ofText (String.ofList name))) = .ok bytes

/-- Between the passes every marker is as it was written, or a value has taken its place. -/
def Staged (mark : Kind → List Char → List Char) (s : Sheet) : Prop :=
  ∀ kind, ∀ name ∈ s.names kind, mark kind name = written kind name ∨ Value (mark kind name)

theorem staged_written (s : Sheet) : Staged written s := fun _ _ _ => Or.inl rfl

theorem Staged.update {given : List Char → List Char} (h : Staged mark s)
    (hgiven : ∀ name ∈ s.names kind, Value (given name)) :
    Staged (Function.update mark kind given) s := by
  intro other name hname
  by_cases hother : other = kind
  · subst hother
    rw [Function.update_self]
    exact Or.inr (hgiven name hname)
  · rw [Function.update_of_ne hother]
    exact h other name hname

theorem named_of_mem (hs : s.Proper) (h : name ∈ s.names kind) : Named name := by
  induction s with
  | last literal => cases h
  | marker literal other first s ih =>
    obtain ⟨-, hfirst, hproper⟩ := hs
    rw [Sheet.names] at h
    split at h
    · rcases List.mem_cons.1 h with rfl | h
      · exact hfirst
      · exact ih hproper h
    · exact ih hproper h

theorem Staged.ready (h : Staged mark s) (hs : s.Proper)
    (hown : ∀ name, mark kind name = written kind name) : Ready kind mark s := by
  refine ⟨hown, fun other hother name hname => ?_⟩
  rcases h other name hname with hwritten | hvalue
  · rw [hwritten]
    exact still_written hother (named_of_mem hs hname)
  · exact hvalue.still kind

/-- A pass over a sheet replaces the markers of its kind and leaves everything else as it is. -/
theorem apply_sheet {t t' : Template} (pass : Pass) (kind : Kind) {given : List Char → List Char}
    (hs : s.Proper) (h : Staged mark s) (hown : ∀ name, mark kind name = written kind name)
    (htext : t.text = s.render mark) (hrecord : pass ≠ .recordTypes)
    (hfind : find pass = at? kind.word)
    (hgiven : ∀ name text, t.value w pass name = .ok text → given name = text) :
    t.apply w pass = (t', none) ↔
      (∀ name ∈ s.names kind, ∃ text, t.value w pass name = .ok text) ∧
        t' = { t with text := s.render (Function.update mark kind given) } := by
  have hparts := parts_render hs (h.ready hs hown)
  rw [apply_eq hrecord hgiven, found, hfind, htext, hparts, names_parts, flatMap_fill_parts]

/-- The quotes around definitions go with their markers. -/
theorem apply_defineTypes {t t' : Template} (hs : s.Proper) (h : Staged mark s)
    (hown : ∀ name, mark .define name = written .define name)
    (hfirm : ∀ other ≠ .define, ∀ name ∈ s.names other, Firm (mark other name))
    (htext : t.text = s.render mark) :
    t.apply w .defineTypes = (t', none) ↔
      t' = { t with text := (s.bare false).render (Function.update mark .define typeIdText) } := by
  have hparts := parts_render hs (h.ready hs hown)
  have hquoted := parts_quotedAt? Kind.define.word (s.render mark)
  rw [hparts, unquote_parts false s hfirm] at hquoted
  have hfind : find .defineTypes = quotedAt? Kind.define.word := rfl
  rw [apply_definitions, hfind, htext, hquoted, flatMap_fill_parts, Prod.mk.injEq,
    and_iff_left rfl, eq_comm]

/-! ### Bare sheets -/

theorem dropQuote_prefix (text : List Char) : dropQuote text <+: text := by
  unfold dropQuote
  split
  · exact List.dropLast_prefix text
  · exact List.prefix_rfl

theorem bare_within (before behind : Bool) (literal : List Char) :
    bare before behind literal <:+: literal := by
  have hskip : (if before then skipQuote literal else literal) <:+ literal := by
    split
    · exact skipQuote_suffix literal
    · exact List.suffix_rfl
  have hdrop : ∀ text, (if behind then dropQuote text else text) <+: text := by
    intro text
    split
    · exact dropQuote_prefix text
    · exact List.prefix_rfl
  exact (hdrop _).isInfix.trans hskip.isInfix

theorem proper_bare (hs : s.Proper) (before : Bool) : (s.bare before).Proper := by
  induction s generalizing before with
  | last literal => exact Literal.within hs (bare_within before false literal)
  | marker literal kind name s ih =>
    obtain ⟨hliteral, hname, hproper⟩ := hs
    exact ⟨hliteral.within (bare_within before _ literal), hname, ih hproper _⟩

theorem names_bare (kind : Kind) (s : Sheet) (before : Bool) :
    (s.bare before).names kind = s.names kind := by
  induction s generalizing before with
  | last literal => rfl
  | marker literal other name s ih => rw [Sheet.bare, Sheet.names, Sheet.names, ih]

theorem Staged.bare (h : Staged mark s) (before : Bool) : Staged mark (s.bare before) := by
  intro kind name hname
  rw [names_bare] at hname
  exact h kind name hname

/-! ### Values of the passes -/

theorem readFile_eq_ok {t : Template} {bytes : List UInt8} :
    t.readFile w name = .ok bytes ↔
      w.read (t.root.join (.ofText (String.ofList name))) = .ok bytes := by
  rw [readFile]
  cases w.read (t.root.join (.ofText (String.ofList name))) <;> simp [Except.mapError]

theorem content_eq {bytes : List UInt8}
    (h : w.read (root.join (.ofText (String.ofList name))) = .ok bytes) :
    content w root name = bytes := by
  rw [content, h]

theorem map_readFile_eq_ok {t : Template} {f : List UInt8 → List Char} :
    (t.readFile w name).map f = .ok text ↔
      Readable w t.root name ∧ f (content w t.root name) = text := by
  cases hread : t.readFile w name with
  | error fault =>
    have hunread : ¬Readable w t.root name := by
      rintro ⟨bytes, hbytes⟩
      rw [readFile_eq_ok.2 hbytes] at hread
      cases hread
    simp [Except.map, hunread]
  | ok bytes =>
    have hbytes := readFile_eq_ok.1 hread
    have hreadable : Readable w t.root name := ⟨bytes, hbytes⟩
    simp [Except.map, hreadable, content_eq hbytes]

/-- The text of a template in which files are filled in. -/
def filed (w : World) (root : Path) : Kind → List Char → List Char :=
  Function.update (Function.update written .data (standIn w root .data)) .hash
    (standIn w root .hash)

theorem update_filed (w : World) (root : Path) :
    Function.update (Function.update (filed w root) .define typeIdText) .refer
      (standIn w root .refer) =
      standIn w root := by
  funext kind
  cases kind <;> rfl

/-- A pass that puts in what `f` makes of files. -/
theorem apply_file {t t' : Template} (pass : Pass) (kind : Kind) {f : List UInt8 → List Char}
    (hs : s.Proper) (h : Staged mark s) (hown : ∀ name, mark kind name = written kind name)
    (htext : t.text = s.render mark) (hrecord : pass ≠ .recordTypes)
    (hfind : find pass = at? kind.word)
    (hvalue : ∀ name, t.value w pass name = (t.readFile w name).map f) :
    t.apply w pass = (t', none) ↔
      (∀ name ∈ s.names kind, Readable w t.root name) ∧
        t' = { t with
          text := s.render (Function.update mark kind fun name => f (content w t.root name)) } := by
  have hgiven : ∀ name text, t.value w pass name = .ok text → f (content w t.root name) = text := by
    intro name text htext
    rw [hvalue, map_readFile_eq_ok] at htext
    exact htext.2
  rw [apply_sheet pass kind hs h hown htext hrecord hfind hgiven]
  simp only [hvalue, map_readFile_eq_ok, exists_and_left, exists_eq', and_true]

theorem content_ne_nil (hfull : w.read (root.join (.ofText (String.ofList name))) ≠ .ok [])
    (hread : Readable w root name) : content w root name ≠ [] := by
  obtain ⟨bytes, hbytes⟩ := hread
  rw [content_eq hbytes]
  rintro rfl
  exact hfull hbytes

theorem value_data
    (hfull : ∀ name ∈ s.names .data, w.read (root.join (.ofText (String.ofList name))) ≠ .ok [])
    (hread : ∀ name ∈ s.names .data, Readable w root name) :
    ∀ name ∈ s.names .data, Value (standIn w root .data name) :=
  fun name hname => value_encode (content_ne_nil (hfull name hname) (hread name hname))

theorem value_digest (d : Digest) : Value (Hex.encode d.bytes) := value_encode (Hex.digest_ne_nil d)

theorem applyAll_files {t t' : Template} {rest : List Pass} (hs : s.Proper)
    (hfull : ∀ name ∈ s.names .data, w.read (t.root.join (.ofText (String.ofList name))) ≠ .ok [])
    (htext : t.text = s.render written) :
    applyAll w (.data :: .hash :: rest) t = .ok t' ↔
      ((∀ name ∈ s.names .data, Readable w t.root name) ∧
        ∀ name ∈ s.names .hash, Readable w t.root name) ∧
        applyAll w rest { t with text := s.render (filed w t.root) } = .ok t' := by
  have hdata : ∀ t', t.apply w .data = (t', none) ↔
      (∀ name ∈ s.names .data, Readable w t.root name) ∧
        t' = { t with
          text := s.render (Function.update written .data fun name =>
            Hex.encode (content w t.root name)) } := by
    intro t'
    exact apply_file .data .data hs (staged_written s) (fun _ => rfl) htext (by decide) rfl
      fun _ => rfl
  rw [applyAll_step hdata, and_assoc]
  refine and_congr_right fun hread => ?_
  have hstaged := (staged_written s).update (value_data hfull hread)
  exact applyAll_step fun t' =>
    apply_file .hash .hash hs hstaged (fun _ => rfl) rfl (by decide) rfl fun _ => rfl

theorem staged_filed
    (hfull : ∀ name ∈ s.names .data, w.read (root.join (.ofText (String.ofList name))) ≠ .ok [])
    (hread : ∀ name ∈ s.names .data, Readable w root name) : Staged (filed w root) s :=
  ((staged_written s).update (value_data hfull hread)).update fun _ _ => value_digest _

theorem firm_filed
    (hfull : ∀ name ∈ s.names .data, w.read (root.join (.ofText (String.ofList name))) ≠ .ok [])
    (hread : ∀ name ∈ s.names .data, Readable w root name) :
    ∀ other ≠ .define, ∀ name ∈ s.names other, Firm (filed w root other name) := by
  intro other hother name hname
  cases other with
  | data => exact firm_encode (content_ne_nil (hfull name hname) (hread name hname))
  | hash => exact firm_encode (Hex.digest_ne_nil _)
  | define => exact absurd rfl hother
  | refer => exact firm_written .refer name

theorem found_recordTypes (hs : s.Proper) (h : Staged (filed w root) s) :
    found .recordTypes (s.render (filed w root)) = s.names .define := by
  have hready : Ready .define (filed w root) s := h.ready hs fun _ => rfl
  have hparts := parts_render hs hready
  rw [found, show find .recordTypes = at? Kind.define.word from rfl, hparts, names_parts]

/-- References go through if their names have been recorded. -/
theorem apply_referTypes {t t' : Template} {known : List (List Char)} (root : Path) (hs : s.Proper)
    (h : Staged mark s) (hown : ∀ name, mark .refer name = written .refer name)
    (htext : t.text = s.render mark)
    (htypes : t.typeIds = scripts known) :
    t.apply w .referTypes = (t', none) ↔
      (∀ name ∈ s.names .refer, name ∈ known) ∧
        t' = { t with text := s.render (Function.update mark .refer (standIn w root .refer)) } := by
  have hvalue : ∀ name text, t.value w .referTypes name = .ok text ↔
      name ∈ known ∧ standIn w root .refer name = text := by
    intro name text
    rw [value_referTypes htypes, standIn]
    split
    · next hname => simp [hname]
    · next hname => simp [hname]
  rw [apply_sheet .referTypes .refer hs h hown htext (by decide) rfl fun name text h =>
    ((hvalue name text).1 h).2]
  simp only [hvalue, exists_and_left, exists_eq', and_true]

theorem applyAll_types {t t' : Template} (hs : s.Proper) (h : Staged (filed w root) s)
    (hfirm : ∀ other ≠ .define, ∀ name ∈ s.names other, Firm (filed w root other name))
    (htext : t.text = s.render (filed w root)) (htypes : t.typeIds = scripts []) :
    applyAll w [.recordTypes, .defineTypes, .referTypes] t = .ok t' ↔
      ((s.names .define).Nodup ∧ ∀ name ∈ s.names .refer, name ∈ s.names .define) ∧
        t' = { t with
          text := (s.bare false).render (standIn w root)
          typeIds := scripts (s.names .define).reverse } := by
  have hrecord : ∀ t', t.apply w .recordTypes = (t', none) ↔
      (s.names .define).Nodup ∧ t' = { t with typeIds := scripts (s.names .define).reverse } := by
    intro t'
    rw [apply_recordTypes_first w htypes, htext, found_recordTypes hs h]
  rw [applyAll_step hrecord, and_assoc]
  refine and_congr_right fun hnodup => ?_
  have hdefine : apply w .defineTypes { t with typeIds := scripts (s.names .define).reverse } =
      ({ t with
        text := (s.bare false).render (Function.update (filed w root) .define typeIdText)
        typeIds := scripts (s.names .define).reverse }, none) := by
    refine (apply_defineTypes hs h (fun _ => rfl) hfirm ?_).2 rfl
    exact htext
  have hstaged : Staged (Function.update (filed w root) .define typeIdText) (s.bare false) :=
    (h.update fun name _ => value_typeIdText name).bare false
  rw [applyAll_cons hdefine, applyAll_step fun t' => apply_referTypes root (proper_bare hs false)
    hstaged (fun _ => rfl) rfl rfl, names_bare, update_filed, applyAll_nil_eq_ok]
  simp only [List.mem_reverse, eq_comm]

/-! ### Expansions -/

/-- The directory that file names are relative to. -/
def directory (path : Path) : Path := path.parent?.getD (.ofText ".")

/-- A sheet expands if its files can be read, no Type ID is defined twice and every reference has a
definition; then every marker is replaced in its place, and the quotes that touch definitions are
dropped. -/
theorem expand_sheet (w : World) (path : Path) {s : Sheet} (hs : s.Proper)
    (hfull : ∀ name ∈ s.names .data,
      w.read ((directory path).join (.ofText (String.ofList name))) ≠ .ok [])
    (text : String) :
    (ofText path (String.ofList (s.render written))).expand w = .ok text ↔
      (((∀ name ∈ s.names .data, Readable w (directory path) name) ∧
          ∀ name ∈ s.names .hash, Readable w (directory path) name) ∧
        (s.names .define).Nodup ∧ ∀ name ∈ s.names .refer, name ∈ s.names .define) ∧
      text = String.ofList ((s.bare false).render (standIn w (directory path))) := by
  have htext : (ofText path (String.ofList (s.render written))).text = s.render written := by
    simp [ofText]
  rw [expand_eq_ok]
  constructor
  · rintro ⟨t', happly, rfl⟩
    obtain ⟨hread, htypes⟩ := (applyAll_files hs hfull htext).1 happly
    obtain ⟨hnames, rfl⟩ :=
      (applyAll_types hs (staged_filed hfull hread.1) (firm_filed hfull hread.1) rfl rfl).1 htypes
    exact ⟨⟨hread, hnames⟩, rfl⟩
  · rintro ⟨⟨hread, hnames⟩, rfl⟩
    have hstaged := staged_filed hfull hread.1
    have hfirm := firm_filed hfull hread.1
    exact ⟨_, (applyAll_files hs hfull htext).2 ⟨hread,
      (applyAll_types hs hstaged hfirm rfl rfl).2 ⟨hnames, rfl⟩⟩, rfl⟩

/-- A reference before its definition, a definition in quotes, and a file. -/
def sampleSheet : Sheet :=
  .marker "[".toList .refer "token".toList <| .marker ", \"".toList .define "token".toList <|
    .marker "\", 0x".toList .data "cell.bin".toList <| .last "]".toList

/-- A world in which every file holds the same byte. -/
def sampleWorld : World where
  environment _ := none
  read _ := .ok [7]
  isFile _ := true
  unwritable _ := none
  start _ := .error .notFound
  library _ := .error "not found"

theorem expand_sampleSheet :
    (ofText (.ofText "fixture.json") (String.ofList (sampleSheet.render written))).expand
      sampleWorld =
      .ok (String.ofList
        ("[".toList ++ (Hex.encode (TypeId.script "token".toList).hash.bytes ++ (", ".toList ++
        (typeIdText "token".toList ++ ", 0x07]".toList))))) := by
  have hproper : sampleSheet.Proper := by decide
  have hread : ∀ name, Readable sampleWorld (directory (.ofText "fixture.json")) name :=
    fun name => ⟨[7], rfl⟩
  refine (expand_sheet sampleWorld (.ofText "fixture.json") hproper
    (fun name _ => by simp [sampleWorld]) _).2
    ⟨⟨⟨fun name _ => hread name, fun name _ => hread name⟩, by decide, by decide⟩, ?_⟩
  rfl

end ScriptProbe.Template
