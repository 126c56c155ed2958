import ScriptProbe.Engine.Resolve
import ScriptProbe.Proofs.Engine.ModuleRef
import ScriptProbe.Proofs.World.Tree

/-! Where a program is found, and when the text of an engine finds the engine again. -/
namespace ScriptProbe

open ScriptProbe.Text

variable {w : World} {program found dir : Path} {value : List UInt8} {dirs : List Path}

namespace Path

/-- The byte between the entries of a search path. -/
abbrev colon : UInt8 := 0x3a

/-- The entries of a search path, in order. -/
structure Entries (value : List UInt8) (dirs : List Path) : Prop where
  ne_nil : dirs ≠ []
  joined : value = [colon].intercalate (dirs.map (·.bytes))
  whole : ∀ dir ∈ dirs, colon ∉ dir.bytes

theorem entries_iff : Entries value dirs ↔ searchList value = dirs := by
  constructor
  · rintro ⟨hne, hjoined, hwhole⟩
    have hpieces : split colon value = dirs.map (·.bytes) := by
      rw [hjoined]
      refine split_intercalate (by simpa using hne) ?_
      intro piece hpiece
      obtain ⟨dir, hdir, rfl⟩ := List.mem_map.1 hpiece
      exact hwhole dir hdir
    rw [searchList, hpieces]
    simp [Function.comp_def]
  · rintro rfl
    have hmap : (searchList value).map (·.bytes) = split colon value := by
      simp [searchList, Function.comp_def]
    refine ⟨?_, ?_, ?_⟩
    · intro hnil
      rw [hnil, split_eq_splitOn] at hmap
      exact List.splitOn_ne_nil colon _ hmap.symm
    · rw [hmap, intercalate_split]
    · intro dir hdir
      exact not_mem_of_mem_split (hmap ▸ List.mem_map_of_mem hdir)

/-- A relative path stands behind a separator at the end of what it is joined to, unless it was
joined to nothing. -/
theorem join_cases (h : ¬program.isAbsolute = true) (dir : Path) :
    dir.join program = program ∨ ∃ front,
      dir.join program = ⟨front ++ separator :: program.bytes⟩ := by
  rw [join, if_neg h]
  split
  · next hdir =>
    rcases hdir with hempty | hends
    · left
      rw [hempty, List.nil_append]
    · obtain ⟨front, hfront⟩ := List.getLast?_eq_some_iff.1 (beq_iff_eq.1 hends)
      exact Or.inr ⟨front, by rw [hfront, List.append_assoc, List.singleton_append]⟩
  · exact Or.inr ⟨dir.bytes, rfl⟩

end Path

namespace World

/-! ### Finding programs -/

theorem bare_of_not_mem (h : Path.separator ∉ program.bytes) :
    ¬(1 < program.components.length ∨ program.isAbsolute = true) :=
  Path.single_iff.2 ⟨_, [], (List.append_nil _).symm, h, .nil, fun _ => rfl⟩

theorem asksDirectory_join (h : Path.AsksDirectory program.bytes)
    (hrelative : ¬program.isAbsolute = true) (dir : Path) :
    Path.AsksDirectory (dir.join program).bytes := by
  rcases Path.join_cases hrelative dir with hjoin | ⟨front, hjoin⟩
  · rwa [hjoin]
  · rw [hjoin]
    exact (h.append [Path.separator]).append front

/-- A path with a separator is taken as it stands. Where its components alone would let it pass for
a name, it asks for a directory, and so does all that it is joined to. -/
theorem findProgram_of_separator (hw : w.Strict) (h : Path.separator ∈ program.bytes) :
    w.findProgram program = if w.isFile program = true then some program else none := by
  by_cases hsingle : 1 < program.components.length ∨ program.isAbsolute = true
  · rw [findProgram, candidates, if_pos hsingle, List.find?_singleton]
  · obtain ⟨name, back, hbytes, hname, hback, -⟩ := Path.single_iff.1 hsingle
    have hne : back ≠ [] := by
      rintro rfl
      rw [hbytes, List.append_nil] at h
      exact hname h
    have hasks : Path.AsksDirectory program.bytes := hbytes ▸ (hback.asksDirectory hne).append name
    have hnone : w.findProgram program = none := by
      rw [findProgram, candidates, if_neg hsingle]
      split
      · rfl
      · apply List.find?_eq_none.2
        intro path hpath
        obtain ⟨dir, -, rfl⟩ := List.mem_map.1 hpath
        rw [hw _ (asksDirectory_join hasks (not_or.1 hsingle).2 dir)]
        exact Bool.false_ne_true
    rw [hnone, hw program hasks, if_neg Bool.false_ne_true]

theorem findProgram_bare (h : Path.separator ∉ program.bytes)
    (hpath : w.environment "PATH" = some value) :
    w.findProgram program =
      ((Path.searchList value).map fun dir => dir.join program).find? fun p => w.isFile p := by
  rw [findProgram, candidates, if_neg (bare_of_not_mem h), hpath]

theorem findProgram_bare_unset (h : Path.separator ∉ program.bytes)
    (hpath : w.environment "PATH" = none) : w.findProgram program = none := by
  rw [findProgram, candidates, if_neg (bare_of_not_mem h), hpath]
  rfl

/-- The first entry under which a file of the name stands. -/
structure FirstUnder (w : World) (program : Path) (value : List UInt8) (before : List Path)
    (dir : Path) (after : List Path) : Prop where
  entries : Path.Entries value (before ++ dir :: after)
  passed : ∀ d ∈ before, w.isFile (d.join program) = false
  file : w.isFile (dir.join program) = true

theorem findProgram_eq_some_iff (h : Path.separator ∉ program.bytes) :
    w.findProgram program = some found ↔
      ∃ value before dir after, w.environment "PATH" = some value ∧
        FirstUnder w program value before dir after ∧ found = dir.join program := by
  cases hpath : w.environment "PATH" with
  | none => simp [findProgram_bare_unset h hpath]
  | some value =>
    rw [findProgram_bare h hpath, List.find?_map, Option.map_eq_some_iff]
    constructor
    · rintro ⟨dir, hdir, rfl⟩
      obtain ⟨hfile, before, after, hlist, hpassed⟩ := List.find?_eq_some_iff_append.1 hdir
      refine ⟨value, before, dir, after, rfl, ⟨Path.entries_iff.2 hlist, ?_, hfile⟩, rfl⟩
      intro d hd
      simpa using hpassed d hd
    · rintro ⟨_, before, dir, after, hvalue, ⟨hentries, hpassed, hfile⟩, rfl⟩
      obtain rfl := Option.some.inj hvalue
      refine ⟨dir, List.find?_eq_some_iff_append.2
        ⟨hfile, before, after, Path.entries_iff.1 hentries, ?_⟩, rfl⟩
      intro d hd
      simpa using hpassed d hd

theorem findProgram_eq_none_iff (h : Path.separator ∉ program.bytes) :
    w.findProgram program = none ↔
      ∀ value dirs, w.environment "PATH" = some value → Path.Entries value dirs →
        ∀ dir ∈ dirs, w.isFile (dir.join program) = false := by
  cases hpath : w.environment "PATH" with
  | none => simp [findProgram_bare_unset h hpath]
  | some value =>
    rw [findProgram_bare h hpath, List.find?_eq_none]
    constructor
    · intro hnone value' dirs hvalue hentries dir hdir
      obtain rfl := Option.some.inj hvalue
      rw [← Path.entries_iff.1 hentries] at hdir
      simpa using hnone _ (List.mem_map_of_mem hdir)
    · intro hnone path hmem
      obtain ⟨dir, hdir, rfl⟩ := List.mem_map.1 hmem
      simpa using hnone value _ rfl (Path.entries_iff.2 rfl) dir hdir

theorem isFile_of_findProgram (h : w.findProgram program = some found) : w.isFile found = true :=
  List.find?_some h

/-- What is found is the program itself, or the program behind a separator. -/
theorem found_cases (hw : w.Strict) (h : w.findProgram program = some found) :
    found = program ∨ ∃ front, found = ⟨front ++ Path.separator :: program.bytes⟩ := by
  by_cases hsep : Path.separator ∈ program.bytes
  · rw [findProgram_of_separator hw hsep] at h
    split at h
    · exact Or.inl (Option.some.inj h).symm
    · cases h
  · obtain ⟨-, -, dir, -, -, -, rfl⟩ := (findProgram_eq_some_iff hsep).1 h
    exact Path.join_cases (not_or.1 (bare_of_not_mem hsep)).2 dir

/-- A program that has been found is found again as it is. -/
theorem findProgram_found (hw : w.Strict) (h : w.findProgram program = some found) :
    w.findProgram found = some found := by
  rcases found_cases hw h with rfl | ⟨front, rfl⟩
  · exact h
  · rw [findProgram_of_separator hw (by simp), if_pos (isFile_of_findProgram h)]

/-- What a program that has been found is shown as is found if it is a file. -/
theorem findProgram_shown (hw : w.Strict) (htext : program.IsText)
    (h : w.findProgram program = some found) :
    w.findProgram (.ofText found.text) =
      if w.isFile (.ofText found.text) = true then some (.ofText found.text) else none := by
  rcases found_cases hw h with rfl | ⟨front, rfl⟩
  · rw [← htext, h, if_pos (isFile_of_findProgram h)]
  · exact findProgram_of_separator hw (Path.separator_mem_text (by simp))

end World

namespace ModuleRef

theorem resolve_process_eq_ok {e : Engine} :
    (process program).resolve w = .ok e ↔
      ∃ found, w.findProgram program = some found ∧ e = Executable.engine w found := by
  rw [resolve]
  cases w.findProgram program with
  | none => simp
  | some found => simp [eq_comm]

/-- The path of a program that was read ends in no blank, and so does the path that it is found
as. -/
theorem ends_of_found {s : String} (hw : w.Strict) (h : read s = .ok (.process program))
    (hfound : w.findProgram program = some found) : Ends found := by
  obtain ⟨-, last, hlast, hblank⟩ := closed_of_read h
  rw [path] at hlast
  rcases World.found_cases hw hfound with rfl | ⟨front, rfl⟩
  · exact ⟨last, hlast, hblank⟩
  · have hne : program.text.toList ≠ [] := by
      intro hnil
      rw [hnil, List.getLast?_nil] at hlast
      cases hlast
    rw [Path.text, String.toList_ofList] at hlast hne
    refine ⟨last, ?_, hblank⟩
    rw [Path.toList_text_append, ← List.singleton_append, ← List.append_assoc,
      List.getLast?_append_of_ne_nil _ hne]
    exact hlast

/-- A path with a separator is taken as it stands, whatever the search path is, and a bare name is
looked for under the entries of the search path in order. The text of an engine that a program was
resolved to is a reference to the path as it is shown. It leads to an engine of the same text if and
only if a file stands there, and to the same engine if the path is a text. -/
theorem resolve_settled (hw : w.Strict) :
    (∀ program : Path, Path.separator ∈ program.bytes → ∀ environment,
      World.findProgram { w with environment } program =
        if w.isFile program = true then some program else none) ∧
    (∀ program : Path, Path.separator ∉ program.bytes →
      (∀ found, w.findProgram program = some found ↔
        ∃ value before dir after, w.environment "PATH" = some value ∧
          World.FirstUnder w program value before dir after ∧ found = dir.join program) ∧
      (w.findProgram program = none ↔
        ∀ value dirs, w.environment "PATH" = some value → Path.Entries value dirs →
          ∀ dir ∈ dirs, w.isFile (dir.join program) = false)) ∧
    ∀ s program e, read s = .ok (.process program) → (process program).resolve w = .ok e →
      ∃ found again, w.findProgram program = some found ∧ read e.describe = .ok again ∧
        (found.IsText → again.resolve w = .ok e) ∧
        ((∃ e', again.resolve w = .ok e' ∧ e'.describe = e.describe) ↔
          w.isFile (.ofText found.text) = true) := by
  refine ⟨?_, ?_, ?_⟩
  · intro program hsep environment
    exact World.findProgram_of_separator (w := { w with environment }) hw hsep
  · intro program hbare
    exact ⟨fun found => World.findProgram_eq_some_iff hbare, World.findProgram_eq_none_iff hbare⟩
  · intro s program e hread hresolve
    obtain ⟨found, hfound, rfl⟩ := resolve_process_eq_ok.1 hresolve
    have hagain : read (process found).text = .ok (.process (.ofText found.text)) :=
      read_text (ends_of_found hw hread hfound)
    have hshown := World.findProgram_shown hw (closed_of_read hread).isText hfound
    refine ⟨found, _, hfound, hagain, ?_, ?_⟩
    · intro htext
      rw [← htext]
      exact resolve_process_eq_ok.2 ⟨found, World.findProgram_found hw hfound, rfl⟩
    · simp only [resolve_process_eq_ok, hshown]
      constructor
      · rintro ⟨e', ⟨found', hfound', -⟩, -⟩
        by_contra hfile
        rw [if_neg hfile] at hfound'
        cases hfound'
      · intro hfile
        refine ⟨_, ⟨_, if_pos hfile, rfl⟩, ?_⟩
        simp [Executable.engine]

/-- The bytes of a text. -/
def bytesOf (s : String) : List UInt8 := Utf8.encode s.toList

/-- An engine in the current directory and one in a directory below it. -/
def sampleTree : Tree where
  entries := [([bytesOf "engine", bytesOf "bin"], .file []), ([bytesOf "bin"], .directory),
    ([bytesOf "engine"], .file [])]
  current := []

/-- The second entry of the search path is empty. -/
def samplePath (name : String) : Option (List UInt8) :=
  if name = "PATH" then some (bytesOf "none::bin") else none

def sampleWorld : World := sampleTree.world samplePath

theorem resolve_settled_sampleWorld :
    sampleWorld.findProgram (.ofText "engine/") = none ∧
    sampleWorld.findProgram (.ofText "bin/engine") = some (.ofText "bin/engine") ∧
    sampleWorld.findProgram (.ofText "engine") = some (.ofText "engine") ∧
    ∃ again, read (Executable.engine sampleWorld (.ofText "engine")).describe = .ok again ∧
      again.resolve sampleWorld = .ok (Executable.engine sampleWorld (.ofText "engine")) := by
  obtain ⟨hseparated, hbare, hagain⟩ :=
    resolve_settled (w := sampleWorld) (Tree.strict_world sampleTree samplePath)
  have hentries : Path.Entries (bytesOf "none::bin") [.ofText "none", .ofText "", .ofText "bin"] :=
    Path.entries_iff.2 (by decide)
  have hfirst : World.FirstUnder sampleWorld (.ofText "engine") (bytesOf "none::bin")
      [.ofText "none"] (.ofText "") [.ofText "bin"] :=
    ⟨hentries, by decide +kernel, by decide +kernel⟩
  have hpath : samplePath "PATH" = some (bytesOf "none::bin") := if_pos rfl
  have hfound : sampleWorld.findProgram (.ofText "engine") = some (.ofText "engine") :=
    ((hbare (.ofText "engine") (by decide)).1 _).2 ⟨_, _, _, _, hpath, hfirst, by decide⟩
  refine ⟨?_, ?_, hfound, ?_⟩
  · refine (hseparated (.ofText "engine/") (by decide) samplePath).trans ?_
    rw [if_neg (by decide +kernel)]
  · refine (hseparated (.ofText "bin/engine") (by decide) samplePath).trans ?_
    rw [if_pos (by decide +kernel)]
  · have hread : read " engine" = .ok (.process (.ofText "engine")) := by decide
    obtain ⟨found, again, hfound', hread', hresolved, -⟩ :=
      hagain " engine" _ _ hread (resolve_process_eq_ok.2 ⟨_, hfound, rfl⟩)
    obtain rfl := Option.some.inj (hfound.symm.trans hfound')
    exact ⟨again, hread', hresolved (Path.isText_ofText _)⟩

/-- A directory whose name is no text, with an engine in it. -/
def strangeDirectory : List UInt8 := [0x64, 0xff]

def strangeTree : Tree where
  entries := [([bytesOf "tool", strangeDirectory], .file []), ([strangeDirectory], .directory)]
  current := []

def strangePath (name : String) : Option (List UInt8) :=
  if name = "PATH" then some strangeDirectory else none

def strangeWorld : World := strangeTree.world strangePath

/-- A search path may lead into a directory whose name is no text. The text of the engine that is
found there does not lead back to it. -/
theorem not_forall_resolve_again :
    (∃ e, (process (.ofText "tool")).resolve strangeWorld = .ok e ∧
      e.describe = "process:d\ufffd/tool" ∧
      read e.describe = .ok (.process (.ofText "d\ufffd/tool"))) ∧
    (process (.ofText "d\ufffd/tool")).resolve strangeWorld =
      .error (.programNotFound (.ofText "d\ufffd/tool")) ∧
    ¬∀ w : World, w.Strict → ∀ s program e, read s = .ok (.process program) →
      (process program).resolve w = .ok e → ∃ again e', read e.describe = .ok again ∧
        again.resolve w = .ok e' ∧ e'.describe = e.describe := by
  have hfound : strangeWorld.findProgram (.ofText "tool") =
      some ⟨strangeDirectory ++ Path.separator :: bytesOf "tool"⟩ := by decide +kernel
  have hresolve := resolve_process_eq_ok.2 ⟨_, hfound, rfl⟩
  have hread : read "process:d\ufffd/tool" = .ok (.process (.ofText "d\ufffd/tool")) := by decide
  have hlost : (process (.ofText "d\ufffd/tool")).resolve strangeWorld =
      .error (.programNotFound (.ofText "d\ufffd/tool")) := by
    have hnone : strangeWorld.findProgram (.ofText "d\ufffd/tool") = none := by decide +kernel
    rw [resolve, hnone]
  refine ⟨⟨_, hresolve, by decide +kernel, hread⟩, hlost, fun hall => ?_⟩
  obtain ⟨again, e', hagain, hresolve', -⟩ :=
    hall strangeWorld (Tree.strict_world _ _) "tool" _ _ (by decide) hresolve
  obtain rfl := Except.ok.inj (hread.symm.trans hagain)
  rw [hlost] at hresolve'
  cases hresolve'

end ModuleRef

end ScriptProbe
