import ScriptProbe.Json.Writer
import ScriptProbe.Proofs.Json.Spelling

/-! Both layouts of JSON text as one writer that differs in its blanks only. -/
namespace ScriptProbe.Json

def Blanks (cs : List Char) : Prop := ∀ c ∈ cs, isBlank c = true

theorem blanks_nil : Blanks [] := nofun

/-- The blanks that a layout puts before the entries of a level and behind a colon. -/
structure Layout where
  gap : Nat → List Char
  space : List Char
  blanks_gap : ∀ level, Blanks (gap level)
  blanks_space : Blanks space

namespace Layout

def tight : Layout := ⟨fun _ => [], [], by simp [Blanks], by simp [Blanks]⟩

def indented : Layout where
  gap := newline
  space := [' ']
  blanks_gap level := by
    intro c hc
    simp only [newline, List.mem_cons, List.mem_replicate] at hc
    rcases hc with rfl | ⟨_, rfl⟩ <;> rfl
  blanks_space := by simp [Blanks, isBlank]

def enclose (l : Layout) (opening closing : Char) (level : Nat) : List (List Char) → List Char
  | [] => [opening, closing]
  | entries =>
    opening :: l.gap (level + 1) ++ joinWith (',' :: l.gap (level + 1)) entries ++
      l.gap level ++ [closing]

mutual

def write (l : Layout) (level : Nat) : Json → List Char
  | null => ['n', 'u', 'l', 'l']
  | bool true => ['t', 'r', 'u', 'e']
  | bool false => ['f', 'a', 'l', 's', 'e']
  | int n => intText n
  | float x => floatText x
  | str s => strText s
  | arr items => l.enclose '[' ']' level (writeItems l (level + 1) items)
  | obj members => l.enclose '{' '}' level (writeMembers l (level + 1) members)

def writeItems (l : Layout) (level : Nat) : List Json → List (List Char)
  | [] => []
  | v :: rest => write l level v :: writeItems l level rest

def writeMembers (l : Layout) (level : Nat) : List (String × Json) → List (List Char)
  | [] => []
  | (key, v) :: rest =>
    (strText key ++ ':' :: (l.space ++ write l level v)) :: writeMembers l level rest

end

theorem writeItems_eq (l : Layout) (level : Nat) (items : List Json) :
    l.writeItems level items = items.map (l.write level) := by
  induction items with
  | nil => rfl
  | cons v rest ih => simp [writeItems, ih]

theorem writeMembers_eq (l : Layout) (level : Nat) (members : List (String × Json)) :
    l.writeMembers level members =
      members.map fun m => strText m.1 ++ ':' :: (l.space ++ l.write level m.2) := by
  induction members with
  | nil => rfl
  | cons m rest ih => simp [writeMembers, ih]

end Layout

/-- A property of all values, from the properties of their parts. -/
@[elab_as_elim]
theorem byParts {motive : Json → Prop} (null : motive .null) (bool : ∀ b, motive (.bool b))
    (int : ∀ n, motive (.int n)) (float : ∀ x, motive (.float x)) (str : ∀ s, motive (.str s))
    (arr : ∀ items, (∀ v ∈ items, motive v) → motive (.arr items))
    (obj : ∀ members, (∀ m ∈ members, motive m.2) → motive (.obj members)) (v : Json) : motive v :=
  @Json.rec motive (fun items => ∀ v ∈ items, motive v) (fun members => ∀ m ∈ members, motive m.2)
    (fun m => motive m.2) null bool int float str arr obj (by simp)
    (fun _ _ hv hrest => List.forall_mem_cons.2 ⟨hv, hrest⟩) (by simp)
    (fun _ _ hm hrest => List.forall_mem_cons.2 ⟨hm, hrest⟩) (fun _ _ h => h) v

theorem compactItems_eq (items : List Json) : compactItems items = items.map compact := by
  induction items with
  | nil => rfl
  | cons v rest ih => simp [compactItems, ih]

theorem compactMembers_eq (members : List (String × Json)) :
    compactMembers members = members.map fun m => strText m.1 ++ ':' :: compact m.2 := by
  induction members with
  | nil => rfl
  | cons m rest ih => simp [compactMembers, ih]

theorem prettyItems_eq (level : Nat) (items : List Json) :
    prettyItems level items = items.map (pretty level) := by
  induction items with
  | nil => rfl
  | cons v rest ih => simp [prettyItems, ih]

theorem prettyMembers_eq (level : Nat) (members : List (String × Json)) :
    prettyMembers level members =
      members.map fun m => strText m.1 ++ ':' :: ' ' :: pretty level m.2 := by
  induction members with
  | nil => rfl
  | cons m rest ih => simp [prettyMembers, ih]

theorem enclose_tight (opening closing : Char) (level : Nat) (entries : List (List Char)) :
    Layout.tight.enclose opening closing level entries =
      opening :: joinWith [','] entries ++ [closing] := by
  cases entries with
  | nil => rfl
  | cons entry entries => simp [Layout.enclose, Layout.tight]

theorem compact_eq_write (v : Json) (level : Nat) : compact v = Layout.tight.write level v := by
  induction v using byParts generalizing level with
  | null => rfl
  | bool b => cases b <;> rfl
  | int n => rfl
  | float x => rfl
  | str s => rfl
  | arr items ih =>
    simp only [compact, Layout.write, compactItems_eq, Layout.writeItems_eq, enclose_tight]
    rw [List.map_congr_left fun v hv => ih v hv (level + 1)]
  | obj members ih =>
    simp only [compact, Layout.write, compactMembers_eq, Layout.writeMembers_eq, enclose_tight]
    rw [List.map_congr_left fun m hm => by rw [ih m hm (level + 1)]]
    rfl

theorem block_eq_enclose (opening closing : Char) (level : Nat) (entries : List (List Char)) :
    block opening closing level entries =
      Layout.indented.enclose opening closing level entries := by
  cases entries <;> rfl

theorem pretty_eq_write (v : Json) (level : Nat) :
    pretty level v = Layout.indented.write level v := by
  induction v using byParts generalizing level with
  | null => rfl
  | bool b => cases b <;> rfl
  | int n => rfl
  | float x => rfl
  | str s => rfl
  | arr items ih =>
    simp only [pretty, Layout.write, prettyItems_eq, Layout.writeItems_eq, block_eq_enclose]
    rw [List.map_congr_left fun v hv => ih v hv (level + 1)]
  | obj members ih =>
    simp only [pretty, Layout.write, prettyMembers_eq, Layout.writeMembers_eq, block_eq_enclose]
    rw [List.map_congr_left fun m hm => by rw [ih m hm (level + 1)]]
    rfl

end ScriptProbe.Json
