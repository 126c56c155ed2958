import ScriptProbe.Fixture.Basic
import ScriptProbe.Fixture.Locate
import ScriptProbe.Proofs.Chain.Form
import ScriptProbe.Proofs.Fixture.Document
import ScriptProbe.Proofs.Fixture.Expansion

/-! The script that a definition stands for is the one that its references and its cell have the
hash of. -/
namespace ScriptProbe.Template

open ScriptProbe.Json ScriptProbe.Text Marker

variable {w : World} {t t' : Template} {name after rest : List Char} {v : Json}
    {front behind : List Part}

/-! ### The text of a definition -/

theorem parse_typeIdText (name : List Char) :
    Json.parse (String.ofList (typeIdText name)) = .ok (canonical (TypeId.script name).view) :=
  parse_toPrettyText (whole_view _) (nests_view _ _)

/-- Inside another text the text of a definition is read as it is alone. -/
theorem value_typeIdText_append {depth : Nat}
    (h : Json.value depth (typeIdText name ++ after) = .ok (v, rest)) :
    v = canonical (TypeId.script name).view := by
  have hwrite : typeIdText name = Layout.indented.write 0 (TypeId.script name).view :=
    pretty_eq_write _ 0
  cases depth with
  | zero => cases h
  | succ depth =>
    have hread := value_write Layout.indented (whole_view (TypeId.script name))
      (nests_view (TypeId.script name) depth) 0 after
    change Json.value (depth + 1)
      (Layout.indented.write 0 (TypeId.script name).view ++ after) = _ at hread
    rw [← hwrite, h] at hread
    exact (Prod.mk.inj (Except.ok.inj hread)).1

/-- The cell in whose place for a type script the text of a definition stands has that script. -/
theorem scriptHash_of_reach {text : String} {f : Fixture} {tx : MockTransaction} {i : Nat}
    {place : List Step} (hf : Fixture.ofText text = .ok f) (htx : f.transaction = .ok tx)
    (hplace : ToOutputType i place)
    (hreach : Reach maxNesting text.toList place (typeIdText name ++ after)) :
    tx.scriptHash .type .output i = .ok (TypeId.script name).hash := by
  have hparse : Json.parse text = .ok f.document := (Fixture.ofText_eq_ok.1 hf).1
  have hform : MockTransaction.form f.document = .ok tx := mapError_eq_ok.1 htx
  obtain ⟨depth, w, rest, hw, hat⟩ := parse_reach hparse hreach
  obtain rfl := value_typeIdText_append hw
  obtain ⟨cell, hcell, htype⟩ := type_of_output hform hplace hat
  have hscript : cell.type = some (TypeId.script name) := by
    rcases nullable_eq_ok.1 htype with ⟨hnull, -⟩ | ⟨-, s, hs, hcell⟩
    · rw [canonical_view] at hnull
      cases hnull
    · rw [form_view] at hs
      rw [hcell, Except.ok.inj hs]
  simp [MockTransaction.scriptHash, MockTransaction.locate, MockTransaction.cells, hcell,
    CellOutput.script?, hscript, Except.map]

/-! ### Definitions in place -/

/-- The text of a definition is no part of a marker, and no marker goes across it. -/
theorem parts_typeIdText (kind : Kind) (name cs rest : List Char) :
    parts (Marker.at? kind.word) (cs ++ (typeIdText name ++ rest)) =
      parts (Marker.at? kind.word) cs ++
        ((typeIdText name).map .char ++ parts (Marker.at? kind.word) rest) := by
  obtain ⟨body, hbody, -⟩ := typeIdText_eq_broken name
  have htext : typeIdText name ++ rest = broken (body ++ rest) := by
    rw [hbody]
    rfl
  have hstill := (value_typeIdText name).still kind
  rw [← parts_append fun c cs hsuffix => hstill.inside c cs hsuffix rest, htext]
  exact parts_broken (brace_not_mem_word kind) (head?_word kind (Or.inr rfl))
    (word_ne_nil kind) cs _

/-- The text of some parts, with scripts in the place of definitions and then with hashes in the
place of references. -/
def settled (ps : List Part) : List Char :=
  (parts (find .referTypes) (ps.flatMap (Part.fill typeIdText))).flatMap
    (Part.fill fun name => Hex.encode (TypeId.script name).hash.bytes)

theorem settled_marker (front behind : List Part) (name : List Char) :
    settled (front ++ .marker name :: behind) =
      settled front ++ (typeIdText name ++ settled behind) := by
  have hparts := parts_typeIdText .refer name (front.flatMap (Part.fill typeIdText))
    (behind.flatMap (Part.fill typeIdText))
  rw [settled, List.flatMap_append, List.flatMap_cons]
  simp only [find, Part.fill]
  rw [show Pass.referTypes.word = Kind.refer.word from rfl, hparts, List.flatMap_append,
    List.flatMap_append, flatMap_fill_chars]
  rfl

theorem text_of_value {names : List (List Char)} {written : List Char}
    (htypes : t.typeIds = scripts names) (h : t.value w .referTypes name = .ok written) :
    Hex.encode (TypeId.script name).hash.bytes = written := by
  rw [value_referTypes htypes] at h
  split at h
  · exact Except.ok.inj h
  · cases h

/-- References go through if each of them has a hash, which then stands in its place. -/
theorem referTypes_eq_ok {names : List (List Char)} (htypes : t.typeIds = scripts names) :
    applyAll w [.referTypes] t = .ok t' ↔
      (∀ name ∈ found .referTypes t.text, ∃ written, t.value w .referTypes name = .ok written) ∧
        t' = { t with
          text := (parts (find .referTypes) t.text).flatMap
            (Part.fill fun name => Hex.encode (TypeId.script name).hash.bytes) } := by
  have happly : ∀ t', t.apply w .referTypes = (t', none) ↔ _ :=
    fun t' => apply_eq (by decide) fun _ _ => text_of_value htypes
  rw [applyAll_step happly, applyAll_nil_eq_ok, eq_comm]

theorem text_of_referTypes {names : List (List Char)} (htypes : t.typeIds = scripts names)
    (h : applyAll w [.referTypes] t = .ok t') :
    t'.text = (parts (find .referTypes) t.text).flatMap
      (Part.fill fun name => Hex.encode (TypeId.script name).hash.bytes) := by
  rw [((referTypes_eq_ok htypes).1 h).2]

/-- What is written for a definition reads as the script of its name and stays in its place,
references to the name are filled in with the hash of that script, and an output that has the
definition for its type has that hash too. -/
theorem definition_agrees (w : World) (path : Path) {text result : String}
    (hexpand : (ofText path text).expand w = .ok result)
    (hfiles : applyAll w [.data, .hash] (ofText path text) = .ok t)
    (hparts : parts (find .defineTypes) t.text = front ++ .marker name :: behind) :
    ∃ written v s next, t.value w .defineTypes name = .ok written ∧
      Json.parse (String.ofList written) = .ok v ∧ Script.form v = .ok s ∧ s = TypeId.script name ∧
      applyAll w [.data, .hash, .recordTypes, .defineTypes] (ofText path text) = .ok next ∧
      next.value w .referTypes name = .ok (Hex.encode s.hash.bytes) ∧
      result.toList = settled front ++ (written ++ settled behind) ∧
      ∀ f tx i place after, Fixture.ofText result = .ok f → f.transaction = .ok tx →
        ToOutputType i place → Reach maxNesting result.toList place (written ++ after) →
        ∃ d, tx.scriptHash .type .output i = .ok d ∧
          d.text = "0x" ++ String.ofList (Hex.encode s.hash.bytes) := by
  obtain ⟨last, hlast, hresult⟩ := expand_eq_ok.1 hexpand
  obtain ⟨next, hnext, hrefer⟩ :=
    (applyAll_append [.data, .hash, .recordTypes, .defineTypes] [.referTypes]).1 hlast
  obtain ⟨t', hfiles', hdefine⟩ :=
    (applyAll_append [.data, .hash] [.recordTypes, .defineTypes]).1 hnext
  obtain rfl := Except.ok.inj (hfiles.symm.trans hfiles')
  have htypes : t.typeIds = scripts [] := applyAll_files_typeIds hfiles
  obtain ⟨-, rfl⟩ := (applyAll_define htypes).1 hdefine
  have hname : name ∈ found .defineTypes t.text := by simp [found, hparts, names, Part.name?]
  refine ⟨typeIdText name, _, TypeId.script name, _, rfl, parse_typeIdText name,
    form_view _, rfl, hnext, ?_, ?_, ?_⟩
  · rw [found_defineTypes] at hname
    rw [value_referTypes rfl, if_pos (List.mem_reverse.2 hname)]
  · rw [← hresult, String.toList_ofList, text_of_referTypes rfl hrefer, ← settled_marker, ← hparts]
    rfl
  · intro f tx i place after hf htx hplace hreach
    refine ⟨_, scriptHash_of_reach hf htx hplace hreach, ?_⟩
    rw [Digest.text, Hex.prefixed, ← String.toList_inj]
    simp

/-- A world without files. -/
def bareWorld : World where
  environment _ := none
  read _ := .error .notFound
  isFile _ := false
  unwritable _ := none
  start _ := .error .notFound
  library _ := .error "not found"

def sampleLock : Json :=
  .arr [.str (String.ofList ('0' :: 'x' :: List.replicate 64 '0')), .str "data", .str "0x"]

def sampleEnd : List Char := "]],[],[]]]".toList

/-- A mock transaction of arrays, with a text in the place of the type of its only output. -/
def sampleText (type : List Char) : List Char :=
  '[' :: inFront [.arr [.arr [], .arr [], .arr []]]
    ('[' :: inFront [.str "0x0", .arr [], .arr [], .arr []]
      ('[' :: '[' :: inFront [.str "0x0", sampleLock] (type ++ sampleEnd)))

def sampleMarker : List Char := Marker.opening ++ " def_type a ".toList ++ Marker.closing

theorem reach_sampleText (type : List Char) :
    Reach maxNesting (sampleText ('{' :: type)) [.item 1, .item 4, .item 0, .item 2]
      ('{' :: type ++ sampleEnd) := by
  have hstr : ∀ s depth, Whole (.str s) ∧ Nests depth (.str s) := fun s depth => ⟨.str s, .str s⟩
  have harr : ∀ items depth, (∀ v ∈ items, Whole v ∧ Nests depth v) →
      Whole (.arr items) ∧ Nests (depth + 1) (.arr items) :=
    fun items depth h => ⟨.arr fun v hv => (h v hv).1, .arr fun v hv => (h v hv).2⟩
  have hempty : ∀ depth, Whole (.arr []) ∧ Nests (depth + 1) (.arr []) :=
    fun depth => harr [] depth (by simp)
  refine .item (skipBlanks_cons rfl _) (itemAt_inFront ?_ rfl rfl (by decide)) ?_
  · simpa using harr _ _ (by simpa using hempty 124)
  refine .item (skipBlanks_cons rfl _) (itemAt_inFront ?_ rfl rfl (by decide)) ?_
  · exact List.forall_mem_cons.2 ⟨hstr _ _, by simpa using hempty 124⟩
  refine .item (skipBlanks_cons rfl _) (.front rfl (by decide)) ?_
  refine .item (skipBlanks_cons rfl _) (itemAt_inFront ?_ rfl rfl (by decide)) ?_
  · refine List.forall_mem_cons.2 ⟨hstr _ _, List.forall_mem_singleton.2 (harr _ _ fun v hv => ?_)⟩
    simp only [List.mem_cons, List.not_mem_nil, or_false] at hv
    rcases hv with rfl | rfl | rfl <;> exact hstr _ _
  exact @Reach.here _ [] _ (by simp [Blanks])

theorem exists_transaction {cs : List Char}
    (h : ((document cs).toOption.bind fun v => (MockTransaction.form v).toOption).isSome = true) :
    ∃ f tx, Fixture.ofText (String.ofList cs) = .ok f ∧ f.transaction = .ok tx := by
  obtain ⟨tx, h⟩ := Option.isSome_iff_exists.1 h
  simp only [Option.bind_eq_some_iff, toOption_eq_some] at h
  obtain ⟨v, hdocument, htx⟩ := h
  refine ⟨⟨none, v⟩, tx, ?_, mapError_eq_ok.2 htx⟩
  simp [Fixture.ofText, Fixture.parse, Json.parse, hdocument, Except.mapError, bind, Except.bind]

theorem definition_agrees_sampleText :
    ∃ f tx d, Fixture.ofText (String.ofList (sampleText (typeIdText ['a']))) = .ok f ∧
      f.transaction = .ok tx ∧ tx.scriptHash .type .output 0 = .ok d ∧
      d.text = "0x" ++ String.ofList (Hex.encode (TypeId.script ['a']).hash.bytes) := by
  have hstart : ofText (.ofText "fixture.json") (String.ofList (sampleText sampleMarker)) =
      ⟨.ofText "", sampleText sampleMarker, []⟩ := by
    have hroot : (Path.parent? (.ofText "fixture.json")).getD (.ofText ".") =
        (.ofText "") := by decide
    simp [ofText, hroot]
  have hall : (applyAll bareWorld passes ⟨.ofText "", sampleText sampleMarker, []⟩).map (·.text) =
      .ok (sampleText (typeIdText ['a'])) := by decide +kernel
  have hfiles : (applyAll bareWorld [.data, .hash] ⟨.ofText "", sampleText sampleMarker, []⟩).map
      (fun t => found .defineTypes t.text) = .ok [['a']] := by decide +kernel
  have hform : ((document (sampleText (typeIdText ['a']))).toOption.bind fun v =>
      (MockTransaction.form v).toOption).isSome = true := by decide +kernel
  obtain ⟨last, hlast, htext⟩ := map_eq_ok.1 hall
  obtain ⟨t, ht, hname⟩ := map_eq_ok.1 hfiles
  have hexpand :
      (ofText (.ofText "fixture.json") (String.ofList (sampleText sampleMarker))).expand bareWorld =
      .ok (String.ofList (sampleText (typeIdText ['a']))) :=
    expand_eq_ok.2 ⟨last, hstart ▸ hlast, congrArg String.ofList htext⟩
  have hmem : ['a'] ∈ found .defineTypes t.text := hname ▸ List.mem_singleton_self ['a']
  obtain ⟨front, behind, hparts⟩ := exists_marker_of_mem hmem
  obtain ⟨written, v, s, next, hwritten, -, -, rfl, -, -, -, hhash⟩ :=
    definition_agrees bareWorld (.ofText "fixture.json") hexpand (hstart ▸ ht) hparts
  obtain rfl := Except.ok.inj hwritten
  obtain ⟨f, tx, hf, htx⟩ := exists_transaction hform
  have hreach : Reach maxNesting (String.ofList (sampleText (typeIdText ['a']))).toList
      [.item 1, .item 4, .item 0, .item 2] (typeIdText ['a'] ++ sampleEnd) := by
    obtain ⟨body, hbody⟩ : ∃ body, typeIdText ['a'] = '{' :: body := ⟨_, rfl⟩
    rw [String.toList_ofList, hbody]
    exact reach_sampleText body
  obtain ⟨d, hd, hdtext⟩ := hhash f tx 0 _ _ hf htx
    ⟨.item 1, .item 4, .item 2, rfl, Or.inr rfl, Or.inr rfl, Or.inr rfl⟩ hreach
  exact ⟨f, tx, d, hf, htx, hd, hdtext⟩

end ScriptProbe.Template
