import ScriptProbe.Json.Mismatch
import ScriptProbe.Proofs.Json.RoundTrip

/-! Which part of a value is read from which place in its text. -/
namespace ScriptProbe.Json

variable {element : List Char → Read Json} {cs rest more sub bound : List Char} {v : Json} {i : Nat}
  {key : String} {seen : List Json} {members : List (String × Json)}

def part? : Json → Step → Option Json
  | .arr items, .item i => items[i]?
  | .obj members, .member key => find? key members
  | _, _ => none

/-- The part of a value that some steps lead to. -/
def at? (v : Json) : List Step → Option Json
  | [] => some v
  | step :: path => (part? v step).bind fun w => at? w path

/-! ### Places -/

/-- Where the item of an index begins, behind a bracket or a comma. -/
inductive ItemAt (element : List Char → Read Json) : Nat → List Char → List Char → Prop
  | here {cs : List Char} (hopen : (skipBlanks cs).head? ≠ some ']') :
    ItemAt element 0 cs (skipBlanks cs)
  | later {i : Nat} {cs rest more sub : List Char} {v : Json}
    (hopen : (skipBlanks cs).head? ≠ some ']') (hv : element (skipBlanks cs) = .ok (v, rest))
    (hcomma : skipBlanks rest = ',' :: more) (h : ItemAt element i more sub) :
    ItemAt element (i + 1) cs sub

/-- No member behind this one has the key again. -/
inductive Silent (element : List Char → Read Json) (key : String) : List Char → Prop
  | done {cs rest : List Char} (h : skipBlanks cs = '}' :: rest) : Silent element key cs
  | next {cs more rest : List Char} {m : String × Json} (hcomma : skipBlanks cs = ',' :: more)
    (hm : member element (skipBlanks more) = .ok (m, rest)) (hkey : m.1 ≠ key)
    (h : Silent element key rest) : Silent element key cs

/-- Where the value of a key begins, behind a brace or a comma; of several members with the key the
last one counts. -/
inductive MemberAt (element : List Char → Read Json) (key : String) : List Char → List Char → Prop
  | here {cs text colon sub rest : List Char} {v : Json} (hquote : skipBlanks cs = '"' :: text)
    (hkey : string text = .ok (key, colon)) (hcolon : skipBlanks colon = ':' :: sub)
    (hv : element sub = .ok (v, rest)) (h : Silent element key rest) : MemberAt element key cs sub
  | later {cs text rest more sub : List Char} {m : String × Json}
    (hquote : skipBlanks cs = '"' :: text)
    (hm : member element (skipBlanks cs) = .ok (m, rest)) (hcomma : skipBlanks rest = ',' :: more)
    (h : MemberAt element key more sub) : MemberAt element key cs sub

/-- Where in a text the part that some steps lead to begins. -/
inductive Reach : Nat → List Char → List Step → List Char → Prop
  | here {depth : Nat} {blanks sub : List Char} (h : Blanks blanks) :
    Reach depth (blanks ++ sub) [] sub
  | item {depth i : Nat} {cs rest place sub : List Char} {path : List Step}
    (hopen : skipBlanks cs = '[' :: rest) (hitem : ItemAt (value depth) i rest place)
    (h : Reach depth place path sub) : Reach (depth + 1) cs (.item i :: path) sub
  | member {depth : Nat} {key : String} {cs rest place sub : List Char} {path : List Step}
    (hopen : skipBlanks cs = '{' :: rest) (hmember : MemberAt (value depth) key rest place)
    (h : Reach depth place path sub) : Reach (depth + 1) cs (.member key :: path) sub

/-! ### Arrays -/

/-- Items that have been read stay in front of those to come. -/
theorem moreItems_seen (h : moreItems element bound seen cs = .ok (v, rest)) :
    ∃ tail, v = .arr (seen.reverse ++ tail) := by
  induction bound generalizing seen cs with
  | nil =>
    rcases moreItems_cases h with ⟨-, hv⟩ | ⟨b, bound', more, w, rest', hbound, -⟩
    · exact ⟨[], by simpa using hv⟩
    · cases hbound
  | cons b bound ih =>
    rcases moreItems_cases h with ⟨-, hv⟩ | ⟨_, _, more, w, rest', hbound, -, -, hmore⟩
    · exact ⟨[], by simpa using hv⟩
    · obtain ⟨-, rfl⟩ := List.cons.inj hbound
      obtain ⟨tail, htail⟩ := ih hmore
      exact ⟨w :: tail, by simpa using htail⟩

theorem moreItems_at (hitem : ItemAt element i more sub) (hcomma : skipBlanks cs = ',' :: more)
    (h : moreItems element bound seen cs = .ok (v, rest)) :
    ∃ w rest' ws, element sub = .ok (w, rest') ∧ v = .arr ws ∧ ws[seen.length + i]? = some w := by
  induction hitem generalizing seen cs bound with
  | here hopen =>
    rcases moreItems_cases h with ⟨hend, -⟩ | ⟨_, _, more', w, rest', -, hmore, hw, htail⟩
    · simp [hcomma] at hend
    · obtain ⟨-, rfl⟩ := List.cons.inj (hcomma.symm.trans hmore)
      obtain ⟨tail, rfl⟩ := moreItems_seen htail
      exact ⟨w, rest', _, hw, rfl, by simp⟩
  | @later i more rest₁ more₁ sub w hopen hw hnext hitem ih =>
    rcases moreItems_cases h with ⟨hend, -⟩ | ⟨_, _, more', w', rest', -, hmore, hw', htail⟩
    · simp [hcomma] at hend
    · obtain ⟨-, rfl⟩ := List.cons.inj (hcomma.symm.trans hmore)
      obtain ⟨rfl, rfl⟩ := Prod.mk.inj (Except.ok.inj (hw.symm.trans hw'))
      obtain ⟨x, rest'', ws, hx, hv, hws⟩ := ih hnext htail
      refine ⟨x, rest'', ws, hx, hv, ?_⟩
      rwa [List.length_cons, Nat.add_right_comm] at hws

theorem items_at (hitem : ItemAt element i cs sub) (h : items element cs = .ok (v, rest)) :
    ∃ w rest' ws, element sub = .ok (w, rest') ∧ v = .arr ws ∧ ws[i]? = some w := by
  cases hitem with
  | here hopen =>
    rcases items_cases h with ⟨hend, -⟩ | ⟨w, rest', hw, hmore⟩
    · simp [hend] at hopen
    · obtain ⟨tail, rfl⟩ := moreItems_seen hmore
      exact ⟨w, rest', _, hw, rfl, by simp⟩
  | @later i _ rest₁ more _ w hopen hw hcomma hitem =>
    rcases items_cases h with ⟨hend, -⟩ | ⟨w', rest', hw', hmore⟩
    · simp [hend] at hopen
    · obtain ⟨rfl, rfl⟩ := Prod.mk.inj (Except.ok.inj (hw.symm.trans hw'))
      obtain ⟨x, rest'', ws, hx, hv, hws⟩ := moreItems_at hitem hcomma hmore
      refine ⟨x, rest'', ws, hx, hv, ?_⟩
      rwa [List.length_singleton, Nat.add_comm] at hws

theorem ItemAt.front {c : Char} (hblank : isBlank c = false) (hclose : c ≠ ']') :
    ItemAt element 0 (c :: cs) (c :: cs) := by
  have hskip : skipBlanks (c :: cs) = c :: cs := skipBlanks_cons hblank cs
  have hhere : ItemAt element 0 (c :: cs) (skipBlanks (c :: cs)) := by
    refine .here ?_
    rw [hskip]
    simpa using hclose
  rwa [hskip] at hhere

/-- Behind an item that is written in some layout the next ones stand where they do alone. -/
theorem ItemAt.behind (l : Layout) (level : Nat) {depth : Nat} (hv : Whole v) (hd : Nests depth v)
    (h : ItemAt (value depth) i more sub) :
    ItemAt (value depth) (i + 1) (l.write level v ++ ',' :: more) sub := by
  obtain ⟨c, cs, hcs, hblank, hclose, -⟩ := (text_write l hv hd level).opens
  have hread := reads_write l hv hd level [] (',' :: more) blanks_nil (ends_cons (by decide) _)
  have hskip : skipBlanks (l.write level v ++ ',' :: more) = l.write level v ++ ',' :: more := by
    rw [hcs, List.cons_append, skipBlanks_cons hblank]
  refine .later ?_ (hskip.symm ▸ hread) (skipBlanks_cons rfl _) h
  rw [hskip, hcs]
  simpa using hclose

/-- Items in front of others, in the compact layout. -/
def inFront (items : List Json) (rest : List Char) : List Char :=
  items.foldr (fun v more => Layout.tight.write 0 v ++ ',' :: more) rest

theorem itemAt_inFront {items : List Json} {depth n : Nat} {c : Char}
    (h : ∀ v ∈ items, Whole v ∧ Nests depth v) (hn : items.length = n) (hblank : isBlank c = false)
    (hclose : c ≠ ']') : ItemAt (value depth) n (inFront items (c :: cs)) (c :: cs) := by
  subst hn
  induction items with
  | nil => exact .front hblank hclose
  | cons v items ih =>
    obtain ⟨⟨hv, hd⟩, hitems⟩ := List.forall_mem_cons.1 h
    exact (ih hitems).behind Layout.tight 0 hv hd

/-! ### Objects -/

theorem find?_cons (key k : String) (w : Json) (members : List (String × Json)) :
    find? key ((k, w) :: members) = if k = key then some w else find? key members := by
  by_cases h : k = key <;> simp [find?, h]

theorem find?_insert_self (key : String) (v : Json) (members : List (String × Json)) :
    find? key (insert key v members) = some v := by
  induction members with
  | nil => simp [insert, find?_cons]
  | cons m members ih =>
    obtain ⟨k, w⟩ := m
    rw [insert]
    split
    · simp [find?_cons]
    · split
      · simp [find?_cons]
      · next hne => rw [find?_cons, if_neg fun h => hne h.symm, ih]

theorem find?_insert_of_ne {other : String} (h : key ≠ other) (v : Json)
    (members : List (String × Json)) :
    find? key (insert other v members) = find? key members := by
  induction members with
  | nil => simp [insert, Ne.symm h, find?]
  | cons m members ih =>
    obtain ⟨k, w⟩ := m
    rw [insert]
    split
    · rw [find?_cons, if_neg (Ne.symm h)]
    · split
      · next heq => rw [find?_cons, find?_cons, ← heq, if_neg (Ne.symm h), if_neg (Ne.symm h)]
      · rw [find?_cons, find?_cons, ih]

theorem moreMembers_silent (hsilent : Silent element key cs)
    (h : moreMembers element bound members cs = .ok (v, rest)) :
    ∃ ms, v = .obj ms ∧ find? key ms = find? key members := by
  induction hsilent generalizing bound members with
  | done hend =>
    rcases moreMembers_cases h with ⟨-, hv⟩ | ⟨_, _, _, _, _, -, hcomma, -⟩
    · exact ⟨members, hv, rfl⟩
    · simp [hend] at hcomma
  | next hcomma hm hkey hsilent ih =>
    rcases moreMembers_cases h with ⟨hend, -⟩ | ⟨_, _, _, _, _, -, hcomma', -, hm', hmore⟩
    · simp [hcomma] at hend
    · obtain ⟨-, rfl⟩ := List.cons.inj (hcomma.symm.trans hcomma')
      obtain ⟨rfl, rfl⟩ := Prod.mk.inj (Except.ok.inj (hm.symm.trans hm'))
      obtain ⟨ms, hv, hms⟩ := ih hmore
      exact ⟨ms, hv, hms.trans (find?_insert_of_ne (Ne.symm hkey) _ _)⟩

/-- Behind the member that begins at a place, the value of the key is the one that is read from
`sub`. -/
theorem moreMembers_at (hmember : MemberAt element key cs sub) {m : String × Json}
    (hm : member element (skipBlanks cs) = .ok (m, more)) (hseen : find? m.1 members = some m.2)
    (h : moreMembers element bound members more = .ok (v, rest)) :
    ∃ w rest' ms, element sub = .ok (w, rest') ∧ v = .obj ms ∧ find? key ms = some w := by
  induction hmember generalizing bound members m more with
  | here hquote hkey hcolon hv hsilent =>
    obtain ⟨colon, sub, hkey', hcolon', hv'⟩ := member_cases hm
    rw [hquote, List.tail_cons] at hkey'
    obtain ⟨rfl, rfl⟩ := Prod.mk.inj (Except.ok.inj (hkey.symm.trans hkey'))
    obtain ⟨-, rfl⟩ := List.cons.inj (hcolon.symm.trans hcolon')
    obtain ⟨rfl, rfl⟩ := Prod.mk.inj (Except.ok.inj (hv.symm.trans hv'))
    obtain ⟨ms, rfl, hms⟩ := moreMembers_silent hsilent h
    exact ⟨m.2, _, ms, hv, rfl, hms.trans hseen⟩
  | later hquote hm₁ hcomma hmember ih =>
    obtain ⟨rfl, rfl⟩ := Prod.mk.inj (Except.ok.inj (hm₁.symm.trans hm))
    rcases moreMembers_cases h with ⟨hend, -⟩ | ⟨_, _, _, n, _, -, hcomma', -, hn, hmore⟩
    · simp [hcomma] at hend
    · obtain ⟨-, rfl⟩ := List.cons.inj (hcomma.symm.trans hcomma')
      exact ih hn (find?_insert_self n.1 n.2 members) hmore

theorem members_at (hmember : MemberAt element key cs sub)
    (h : Json.members element cs = .ok (v, rest)) :
    ∃ w rest' ms, element sub = .ok (w, rest') ∧ v = .obj ms ∧ find? key ms = some w := by
  rcases members_cases h with ⟨hend, -⟩ | ⟨m, rest', -, hm, hmore⟩
  · cases hmember with
    | here hquote _ _ _ _ => simp [hend] at hquote
    | later hquote _ _ _ => simp [hend] at hquote
  · exact moreMembers_at hmember hm (by simp [find?]) hmore

/-! ### Values -/

/-- The part that some steps lead to is read from the place where they lead to in the text. -/
theorem value_reach {depth : Nat} {path : List Step} (hreach : Reach depth cs path sub)
    (h : value depth cs = .ok (v, rest)) :
    ∃ inner w rest', value inner sub = .ok (w, rest') ∧ at? v path = some w := by
  induction hreach generalizing v rest with
  | @here depth blanks sub hblanks =>
    rw [value_blanks hblanks] at h
    exact ⟨depth, v, rest, h, rfl⟩
  | item hopen hitem hreach ih =>
    rw [value_arr hopen] at h
    obtain ⟨w, rest', ws, hw, rfl, hws⟩ := items_at hitem h
    obtain ⟨inner, x, rest'', hx, hat⟩ := ih hw
    exact ⟨inner, x, rest'', hx, by simp [at?, part?, hws, hat]⟩
  | member hopen hmember hreach ih =>
    rw [value_obj hopen] at h
    obtain ⟨w, rest', ms, hw, rfl, hms⟩ := members_at hmember h
    obtain ⟨inner, x, rest'', hx, hat⟩ := ih hw
    exact ⟨inner, x, rest'', hx, by simp [at?, part?, hms, hat]⟩

theorem document_eq_ok {cs : List Char} (h : document cs = .ok v) :
    ∃ rest, value maxNesting cs = .ok (v, rest) := by
  unfold document at h
  split at h
  · cases h
  · next w rest hw =>
    split at h
    · exact ⟨rest, Except.ok.inj h ▸ hw⟩
    · cases h

theorem parse_eq_ok {text : String} (h : parse text = .ok v) :
    ∃ rest, value maxNesting text.toList = .ok (v, rest) := by
  unfold parse at h
  split at h
  · cases h
  · next w hw => exact document_eq_ok (Except.ok.inj h ▸ hw)

theorem parse_reach {text : String} {path : List Step} (h : parse text = .ok v)
    (hreach : Reach maxNesting text.toList path sub) :
    ∃ inner w rest', value inner sub = .ok (w, rest') ∧ at? v path = some w := by
  obtain ⟨rest, hvalue⟩ := parse_eq_ok h
  exact value_reach hreach hvalue

end ScriptProbe.Json
