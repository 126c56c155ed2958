import ScriptProbe.Engine.ModuleRef
import ScriptProbe.Proofs.Text.Trim
import ScriptProbe.Proofs.World.Path

/-! What a text refers to, and that the text of a reference refers to what it was read as. -/
namespace ScriptProbe.ModuleRef

open ScriptProbe.Text

variable {s : String} {cs core path : List Char} {m : ModuleRef}

/-! ### References -/

/-- A path to a library, by the extension of the name that it ends in. -/
def NamesLibrary (cs : List Char) : Prop :=
  ∃ stem, ∃ extension ∈ libraryExtensions,
    Path.EndsIn (Utf8.encode cs) (stem ++ Path.point :: Utf8.encode extension.toList) ∧ stem ≠ []

/-- What a text without blanks around it refers to. A lead tells the kind, whatever the extension
is. -/
inductive Refers : List Char → ModuleRef → Prop
  | process {path : List Char} (hne : path ≠ []) :
    Refers (processLead ++ path) (.process (.ofText (String.ofList path)))
  | library {path : List Char} (hne : path ≠ []) :
    Refers (libraryLead ++ path) (.library (.ofText (String.ofList path)))
  | bareProcess {path : List Char} (hne : path ≠ []) (hprocess : ¬processLead <+: path)
    (hlibrary : ¬libraryLead <+: path) (hname : ¬NamesLibrary path) :
    Refers path (.process (.ofText (String.ofList path)))
  | bareLibrary {path : List Char} (hprocess : ¬processLead <+: path)
    (hlibrary : ¬libraryLead <+: path)
    (hname : NamesLibrary path) : Refers path (.library (.ofText (String.ofList path)))

theorem NamesLibrary.ne_nil (h : NamesLibrary cs) : cs ≠ [] := by
  obtain ⟨stem, extension, -, ⟨front, back, hcs, -, -, -⟩, -⟩ := h
  rintro rfl
  simp [Utf8.encode] at hcs

theorem isLibraryPath_ofText (cs : List Char) :
    isLibraryPath (.ofText (String.ofList cs)) = true ↔ NamesLibrary cs := by
  have hbytes : (Path.ofText (String.ofList cs)).bytes = Utf8.encode cs := by
    rw [Path.ofText, String.toList_ofList]
  constructor
  · intro h
    rw [isLibraryPath] at h
    split at h
    · next e he =>
      obtain ⟨extension, hmem, hname⟩ := List.any_eq_true.1 h
      obtain rfl := beq_iff_eq.1 hname
      obtain ⟨stem, hends, hstem, -, -⟩ := Path.extension?_eq_some.1 he
      exact ⟨stem, extension, hmem, hbytes ▸ hends, hstem⟩
    · cases h
  · rintro ⟨stem, extension, hmem, hends, hstem⟩
    have hplain : Path.point ∉ Utf8.encode extension.toList ∧
        Utf8.encode extension.toList ≠ [] := by
      have hall : ∀ e ∈ libraryExtensions,
          Path.point ∉ Utf8.encode e.toList ∧ Utf8.encode e.toList ≠ [] := by decide
      exact hall _ hmem
    have hdots : stem ++ Path.point :: Utf8.encode extension.toList ≠ Path.above := by
      intro heq
      have hlength := congrArg List.length heq
      have hone := List.length_pos_iff.2 hstem
      have htwo := List.length_pos_iff.2 hplain.2
      simp only [Path.above, List.length_append, List.length_cons, List.length_nil] at hlength
      omega
    rw [← hbytes] at hends
    have he := Path.extension?_eq_some.2 ⟨stem, hends, hstem, hplain.1, hdots⟩
    rw [isLibraryPath, he]
    exact List.any_eq_true.2 ⟨extension, hmem, beq_self_eq_true _⟩

/-! ### Reading -/

theorem processLead_ne_nil : processLead ≠ [] := by decide

theorem libraryLead_ne_nil : libraryLead ≠ [] := by decide

theorem readChars_process (path : List Char) :
    readChars (processLead ++ path) = withPath .process path := by
  have hne := List.append_ne_nil_of_left_ne_nil processLead_ne_nil path
  rw [readChars, if_neg hne, after?_append]

theorem readChars_library (path : List Char) :
    readChars (libraryLead ++ path) = withPath .library path := by
  have hne := List.append_ne_nil_of_left_ne_nil libraryLead_ne_nil path
  have hprocess : after? processLead (libraryLead ++ path) = none := rfl
  rw [readChars, if_neg hne, hprocess, after?_append]

theorem after?_eq_none {lead : List Char} (h : ¬lead <+: cs) : after? lead cs = none := by
  apply Option.eq_none_iff_forall_ne_some.2
  intro rest hrest
  exact h ⟨rest, (eq_append_of_after? hrest).symm⟩

theorem readChars_bare (hne : cs ≠ []) (hprocess : ¬processLead <+: cs)
    (hlibrary : ¬libraryLead <+: cs) :
    readChars cs =
      .ok (if isLibraryPath (.ofText (String.ofList cs)) then .library (.ofText (String.ofList cs))
        else .process (.ofText (String.ofList cs))) := by
  rw [readChars, if_neg hne, after?_eq_none hprocess, after?_eq_none hlibrary]
  cases h : isLibraryPath (.ofText (String.ofList cs)) <;> simp [h]

/-- A text begins with one of the leads, or with neither. -/
theorem lead_cases (cs : List Char) :
    (∃ path, cs = processLead ++ path) ∨ (∃ path, cs = libraryLead ++ path) ∨
      ¬processLead <+: cs ∧ ¬libraryLead <+: cs := by
  by_cases hprocess : processLead <+: cs
  · obtain ⟨path, rfl⟩ := hprocess
    exact Or.inl ⟨path, rfl⟩
  · by_cases hlibrary : libraryLead <+: cs
    · obtain ⟨path, rfl⟩ := hlibrary
      exact Or.inr (Or.inl ⟨path, rfl⟩)
    · exact Or.inr (Or.inr ⟨hprocess, hlibrary⟩)

theorem withPath_eq_ok {kind : Path → ModuleRef} :
    withPath kind path = .ok m ↔ path ≠ [] ∧ m = kind (.ofText (String.ofList path)) := by
  rw [withPath]
  split <;> simp_all [eq_comm]

theorem readChars_of_refers (h : Refers cs m) : readChars cs = .ok m := by
  cases h with
  | process hne => rw [readChars_process, withPath_eq_ok.2 ⟨hne, rfl⟩]
  | library hne => rw [readChars_library, withPath_eq_ok.2 ⟨hne, rfl⟩]
  | bareProcess hne hprocess hlibrary hname =>
    rw [readChars_bare hne hprocess hlibrary, if_neg (mt (isLibraryPath_ofText cs).1 hname)]
  | bareLibrary hprocess hlibrary hname =>
    rw [readChars_bare hname.ne_nil hprocess hlibrary, if_pos ((isLibraryPath_ofText cs).2 hname)]

theorem refers_of_readChars (h : readChars cs = .ok m) : Refers cs m := by
  obtain ⟨path, rfl⟩ | ⟨path, rfl⟩ | ⟨hprocess, hlibrary⟩ := lead_cases cs
  · rw [readChars_process] at h
    obtain ⟨hne, rfl⟩ := withPath_eq_ok.1 h
    exact .process hne
  · rw [readChars_library] at h
    obtain ⟨hne, rfl⟩ := withPath_eq_ok.1 h
    exact .library hne
  · have hne : cs ≠ [] := by
      rintro rfl
      cases h
    rw [readChars_bare hne hprocess hlibrary] at h
    obtain rfl := Except.ok.inj h
    split
    · next hname => exact .bareLibrary hprocess hlibrary ((isLibraryPath_ofText cs).1 hname)
    · next hname => exact .bareProcess hne hprocess hlibrary (mt (isLibraryPath_ofText cs).2 hname)

theorem readChars_eq_ok : readChars cs = .ok m ↔ Refers cs m :=
  ⟨refers_of_readChars, readChars_of_refers⟩

/-! ### Texts of references -/

/-- The text of a path ends in no character that trimming takes away. -/
def Ends (p : Path) : Prop := ∃ last, p.text.toList.getLast? = some last ∧ isBlank last = false

/-- The path of a reference is a text, and trimming takes nothing off its end. -/
structure Closed (m : ModuleRef) : Prop where
  isText : m.path.IsText
  ends : Ends m.path

/-- A path is what stands at the end of the text that it was read from. -/
theorem Refers.exists_lead (h : Refers cs m) :
    m.path.text.toList ≠ [] ∧ ∃ lead, cs = lead ++ m.path.text.toList := by
  cases h with
  | process hne => exact ⟨by simpa [path] using hne, processLead, by simp [path]⟩
  | library hne => exact ⟨by simpa [path] using hne, libraryLead, by simp [path]⟩
  | bareProcess hne => exact ⟨by simpa [path] using hne, [], by simp [path]⟩
  | bareLibrary _ _ hname => exact ⟨by simpa [path] using hname.ne_nil, [], by simp [path]⟩

theorem Refers.isText (h : Refers cs m) : m.path.IsText := by
  cases h <;> exact Path.isText_ofText _

theorem closed_of_read (h : read s = .ok m) : Closed m := by
  have hrefers := readChars_eq_ok.1 h
  obtain ⟨hne, lead, htext⟩ := hrefers.exists_lead
  have hlast := List.getLast?_eq_some_getLast hne
  refine ⟨hrefers.isText, _, hlast, (trims_trim s.toList).closes _ ?_⟩
  rw [htext, List.getLast?_append_of_ne_nil lead hne, hlast]
  rfl

/-- The kind of a reference as the lead of its text. -/
def lead : ModuleRef → List Char
  | process _ => processLead
  | library _ => libraryLead

/-- The reference to the path that a path is shown as. -/
def shown : ModuleRef → ModuleRef
  | process p => process (.ofText p.text)
  | library p => library (.ofText p.text)

theorem toList_text (m : ModuleRef) : m.text.toList = m.lead ++ m.path.text.toList := by
  cases m <;> exact String.toList_append

theorem readChars_text (h : m.path.text.toList ≠ []) : readChars m.text.toList = .ok m.shown := by
  rw [readChars_eq_ok, toList_text]
  cases m with
  | process p =>
    have hrefers := Refers.process h
    rwa [String.ofList_toList] at hrefers
  | library p =>
    have hrefers := Refers.library h
    rwa [String.ofList_toList] at hrefers

/-- The text of a reference is read as the reference to what its path is shown as. -/
theorem read_text (h : Ends m.path) : read m.text = .ok m.shown := by
  obtain ⟨last, hlast, hblank⟩ := h
  have hne : m.path.text.toList ≠ [] := by
    intro hnil
    rw [hnil] at hlast
    cases hlast
  have htrim : trim m.text.toList = m.text.toList := by
    apply trim_eq_self
    · intro c hc
      rw [toList_text] at hc
      cases m <;> (obtain rfl := Option.some.inj hc; rfl)
    · intro c hc
      rw [toList_text, List.getLast?_append_of_ne_nil _ hne, hlast] at hc
      obtain rfl := Option.some.inj hc
      exact hblank
  rw [read, htrim, readChars_text hne]

/-- Blanks behind a lead belong to the path, and the extension tells nothing there. -/
example : read " process: lib.so\t" = .ok (.process (.ofText " lib.so")) := by decide

end ScriptProbe.ModuleRef
