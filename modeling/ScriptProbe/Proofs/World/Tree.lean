import ScriptProbe.Proofs.World.Path
import ScriptProbe.World.Tree

/-! A path that asks for a directory names no file of a tree. -/
namespace ScriptProbe

/-- Files as systems have them: what asks for a directory is none. -/
def World.Strict (w : World) : Prop := ∀ p, Path.AsksDirectory p.bytes → w.isFile p = false

namespace Tree

open ScriptProbe.Text

variable {t : Tree} {p : Path} {place last : Place} {piece : List UInt8}
    {pieces : List (List UInt8)}

/-- A walk whose last piece is idle ends where it was, and it goes on from directories only. -/
theorem isDirectory_of_walk (hidle : Path.idle piece = true)
    (h : t.walk place (pieces ++ [piece]) = .ok last) :
    t.isDirectory last = true := by
  induction pieces generalizing place with
  | nil =>
    rw [List.nil_append, walk] at h
    split at h
    · cases h
    · next hdirectory =>
      rw [walk] at h
      obtain rfl := Except.ok.inj h
      simpa using hdirectory
  | cons first pieces ih =>
    rw [List.cons_append, walk] at h
    split at h
    · cases h
    · split at h
      · exact ih h
      · split at h
        · exact ih h
        · split at h
          · cases h
          · split at h
            · exact ih h
            · cases h

theorem exists_pieces (h : Path.AsksDirectory p.bytes) :
    ∃ pieces piece, p.pieces = pieces ++ [piece] ∧ Path.idle piece = true := by
  rcases h with ⟨front, hfront⟩ | ⟨front, hfront⟩
  · refine ⟨split Path.separator front, [], ?_, rfl⟩
    rw [Path.pieces, ← hfront, split_append_cons]
    rfl
  · refine ⟨split Path.separator front, [Path.point], ?_, rfl⟩
    rw [Path.pieces, ← hfront, split_append_cons]
    rfl

theorem find_of_asksDirectory {node : Node} (h : Path.AsksDirectory p.bytes)
    (hnode : t.find p = .ok node) :
    node = .directory := by
  obtain ⟨pieces, piece, hpieces, hidle⟩ := exists_pieces h
  rw [find, hpieces] at hnode
  cases hcheck : checkPath p with
  | error refusal => simp [hcheck, bind, Except.bind] at hnode
  | ok done =>
    cases hwalk : t.walk (t.start p) (pieces ++ [piece]) with
    | error refusal => simp [hcheck, hwalk, bind, Except.bind] at hnode
    | ok last =>
      have hdirectory := isDirectory_of_walk hidle hwalk
      simp only [hcheck, hwalk, bind, Except.bind] at hnode
      rw [isDirectory] at hdirectory
      split at hdirectory
      · next hlast =>
        rw [hlast] at hnode
        exact (Except.ok.inj hnode).symm
      · cases hdirectory

theorem strict_world (t : Tree) (environment : String → Option (List UInt8)) :
    (t.world environment).Strict := by
  intro p h
  change t.isFile p = false
  rw [isFile]
  cases hfind : t.find p with
  | error refusal => rfl
  | ok node =>
    rw [find_of_asksDirectory h hfind]

end Tree

end ScriptProbe
