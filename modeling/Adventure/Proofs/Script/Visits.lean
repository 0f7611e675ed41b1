import Adventure.Proofs.Script.Places
import Adventure.Script.Command

/-!
# Walks through scripts

Every command of a script has a place: its position in its list, then, for each list that it is
nested in, the position of that list in its command and of the list's command in turn.  Below a
command there are its branches and, behind them, the body of a route.  `Script.enumerates_visits`
says that a walk comes past every place once and in order, parents before children.

The path that a walk gives is the place with one difference: the body of a route counts as
list 0.  So paths tell commands apart as long as no route has commands in its first branch
as well (`Script.nodup_paths_iff`).
-/

namespace Adventure

/-! ## Places in scripts -/

namespace Command

/-- The lists below a command: at which position, with which number in paths, and what is
in them. -/
inductive HasList : Command → (position number : Nat) → Script → Prop where
  | branch {c : Command} {i : Nat} {list : Script} (h : c.branches[i]? = some list) :
    HasList c i i list
  | body {order : RouteOrder} {body : Script} {branches : List Script} :
    HasList (.route order body branches) branches.length 0 body

end Command

/-- What stands in a script: at which place, with which path. -/
inductive Script.Stands : Script → (place path : List Nat) → Command → Prop where
  | here {script : Script} {i : Nat} {c : Command} (h : script[i]? = some c) :
    Stands script [i] [i] c
  | nested {script list : Script} {i l n : Nat} {place path : List Nat} {parent c : Command}
    (h : script[i]? = some parent) (hlist : parent.HasList l n list)
    (hstands : Stands list place path c) : Stands script (i :: l :: place) (i :: n :: path) c

namespace Command

/-- What a walk that comes to a command by a path finds there and below. -/
def Finds (path : List Nat) (c : Command) (place : List Nat) (v : Visit) : Prop :=
  (place = [] ∧ v = ⟨path, c⟩) ∨
    ∃ l n list place' path', place = l :: place' ∧ c.HasList l n list ∧
      Script.Stands list place' path' v.command ∧ v.path = path ++ n :: path'

/-- What a walk that comes to a list by a path finds in it. -/
def FindsIn (path : List Nat) (list : Script) (place : List Nat) (v : Visit) : Prop :=
  ∃ path', Script.Stands list place path' v.command ∧ v.path = path ++ path'

theorem findsIn_iff {path : List Nat} {list : Script} {place : List Nat} {v : Visit} :
    FindsIn path list place v ↔ Numbered (fun i => Finds (path ++ [i])) 0 list place v := by
  obtain ⟨vpath, command⟩ := v
  constructor
  · rintro ⟨path', hstands, rfl⟩
    cases hstands with
    | here h => exact ⟨_, command, [], h, by simp, .inl ⟨rfl, by simp⟩⟩
    | @nested _ list' i l n place' path' parent _ h hlist hstands =>
      exact ⟨i, parent, l :: place', h, by simp,
        .inr ⟨l, n, list', place', path', rfl, hlist, hstands, by simp⟩⟩
  · rintro ⟨i, c, q, h, rfl, ⟨rfl, heq⟩ | ⟨l, n, list', place', path', rfl, hlist, hstands, heq⟩⟩
    · cases heq
      exact ⟨[i], by simpa using .here h, by simp⟩
    · exact ⟨i :: n :: path', by simpa using .nested h hlist hstands, by simpa using heq⟩

/-- What a walk finds below a command are the branches and then the body. -/
theorem finds_act_iff {path place : List Nat} {action : Action} {branches : List Script}
    {v : Visit} :
    Finds path (.act action branches) place v ↔ (place = [] ∧ v = ⟨path, .act action branches⟩) ∨
      Numbered (fun i => FindsIn (path ++ [i])) 0 branches place v := by
  refine or_congr_right ⟨?_, ?_⟩
  · rintro ⟨l, n, list, place', path', rfl, hlist, hstands, heq⟩
    cases hlist with
    | branch h => exact ⟨l, list, place', h, by simp, path', hstands, by simpa using heq⟩
  · rintro ⟨l, list, place', h, rfl, path', hstands, heq⟩
    exact ⟨0 + l, 0 + l, list, place', path', rfl, .branch (by rwa [Nat.zero_add]), hstands,
      by simpa using heq⟩

theorem finds_route_iff {path place : List Nat} {order : RouteOrder} {body : Script}
    {branches : List Script} {v : Visit} :
    Finds path (.route order body branches) place v ↔
      ((place = [] ∧ v = ⟨path, .route order body branches⟩) ∨
        Numbered (fun i => FindsIn (path ++ [i])) 0 branches place v) ∨
      ∃ place', place = branches.length :: place' ∧ FindsIn (path ++ [0]) body place' v := by
  rw [or_assoc]
  refine or_congr_right ⟨?_, ?_⟩
  · rintro ⟨l, n, list, place', path', rfl, hlist, hstands, heq⟩
    cases hlist with
    | branch h => exact .inl ⟨l, list, place', h, by simp, path', hstands, by simpa using heq⟩
    | body => exact .inr ⟨place', rfl, path', hstands, by simpa using heq⟩
  · rintro (⟨l, list, place', h, rfl, path', hstands, heq⟩ | ⟨place', rfl, path', hstands, heq⟩)
    · exact ⟨0 + l, 0 + l, list, place', path', rfl, .branch (by rwa [Nat.zero_add]), hstands,
        by simpa using heq⟩
    · exact ⟨_, _, body, place', path', rfl, .body, hstands, by simpa using heq⟩

/-! ## Walks -/

mutual

theorem enumerates_visit :
    ∀ (path : List Nat) (c : Command), Enumerates (Finds path c) (visit path c)
  | path, .act action branches => by
    have hfirst := Enumerates.single [] (⟨path, .act action branches⟩ : Visit)
    refine (hfirst.append (enumerates_visitLists path 0 branches) ?_).congr
      fun place v => finds_act_iff.symm
    rintro p a q b ⟨rfl, -⟩ ⟨i, list, q', -, rfl, -⟩
    exact .nil
  | path, .route order body branches => by
    have hfirst := Enumerates.single [] (⟨path, .route order body branches⟩ : Visit)
    have hbody := (enumerates_visitList (path ++ [0]) 0 body).congr
      fun place v => findsIn_iff.symm
    refine ((hfirst.append (enumerates_visitLists path 0 branches) ?_).append
      (hbody.under branches.length) ?_).congr fun place v => finds_route_iff.symm
    · rintro p a q b ⟨rfl, -⟩ ⟨i, list, q', -, rfl, -⟩
      exact .nil
    · rintro p a q b (⟨rfl, -⟩ | ⟨i, list, p', hlist, rfl, -⟩) ⟨q', rfl, -⟩
      · exact .nil
      · have hlt : i < branches.length := (List.getElem?_eq_some_iff.1 hlist).1
        exact .rel (by omega)

theorem enumerates_visitLists : ∀ (path : List Nat) (index : Nat) (lists : List Script),
    Enumerates (Numbered (fun i => FindsIn (path ++ [i])) index lists) (visitLists path index lists)
  | _, _, [] => .numbered_nil
  | path, index, list :: rest => by
    have hlist := (enumerates_visitList (path ++ [index]) 0 list).congr
      fun place v => findsIn_iff.symm
    exact .numbered_cons hlist (enumerates_visitLists path (index + 1) rest)

theorem enumerates_visitList : ∀ (path : List Nat) (index : Nat) (list : Script),
    Enumerates (Numbered (fun i => Finds (path ++ [i])) index list) (visitList path index list)
  | _, _, [] => .numbered_nil
  | path, index, c :: rest =>
    .numbered_cons (enumerates_visit (path ++ [index]) c)
      (enumerates_visitList path (index + 1) rest)

end

end Command

namespace Script

variable {script : Script}

/-- A walk comes past everything that stands in a script. -/
theorem enumerates_visits (script : Script) :
    Enumerates (fun place v => Stands script place v.path v.command) (Command.visits script) := by
  refine (Command.enumerates_visitList [] 0 script).congr fun place v => ?_
  have hfinds : Command.FindsIn [] script place v ↔ _ := Command.findsIn_iff
  refine hfinds.symm.trans ⟨?_, fun h => ⟨v.path, h, rfl⟩⟩
  rintro ⟨path', hstands, heq⟩
  rwa [show v.path = path' from heq]

end Script

/-! ## Paths -/

namespace Command

/-- Whether paths tell the lists below a command apart, as far as there are commands in them. -/
def numbersApart : Command → Bool
  | route _ body (first :: _) => first.isEmpty || body.isEmpty
  | _ => true

theorem eq_nil_of_numbersApart {order : RouteOrder} {body first : Script} {branches : List Script}
    (apart : (route order body branches).numbersApart = true) (h : branches[0]? = some first) :
    first = [] ∨ body = [] := by
  cases branches with
  | nil => cases h
  | cons _ _ =>
    obtain rfl := Option.some.inj h
    simpa [numbersApart] using apart

/-- Lists of one number are one list, as far as there are commands in them. -/
theorem HasList.position_eq {c : Command} {l l' n : Nat} {list list' : Script}
    (h : c.HasList l n list) (h' : c.HasList l' n list') (apart : c.numbersApart = true)
    (hne : list ≠ []) (hne' : list' ≠ []) : l = l' ∧ list = list' := by
  cases h with
  | branch hbranch =>
    cases h' with
    | branch hbranch' => exact ⟨rfl, Option.some.inj (hbranch.symm.trans hbranch')⟩
    | body =>
      rcases eq_nil_of_numbersApart apart hbranch with h | h
      · exact absurd h hne
      · exact absurd h hne'
  | body =>
    cases h' with
    | branch hbranch =>
      rcases eq_nil_of_numbersApart apart hbranch with h | h
      · exact absurd h hne'
      · exact absurd h hne
    | body => exact ⟨rfl, rfl⟩

end Command

namespace Script

/-- Whether paths tell the lists below every command of a script apart. -/
def NumbersApart (script : Script) : Prop :=
  ∀ v ∈ Command.visits script, v.command.numbersApart = true

instance (script : Script) : Decidable (NumbersApart script) :=
  inferInstanceAs (Decidable (∀ v ∈ Command.visits script, v.command.numbersApart = true))

theorem numbersApart_iff : NumbersApart script ↔
    ∀ place path c, Stands script place path c → c.numbersApart = true := by
  constructor
  · intro h place path c hstands
    exact h ⟨path, c⟩ ((enumerates_visits script).mem_iff.2 ⟨place, hstands⟩)
  · intro h v hv
    obtain ⟨place, hstands⟩ := (enumerates_visits script).mem_iff.1 hv
    exact h place v.path v.command hstands

theorem Stands.ne_nil {place path : List Nat} {c : Command} (h : Stands script place path c) :
    script ≠ [] := by
  rintro rfl
  cases h with
  | here h => cases h
  | nested h _ _ => cases h

/-- A path leads to one place at most. -/
theorem Stands.unique {place place' path : List Nat} {c c' : Command}
    (apart : NumbersApart script) (h : Stands script place path c)
    (h' : Stands script place' path c') : place = place' ∧ c = c' := by
  rw [numbersApart_iff] at apart
  induction h generalizing place' with
  | here hc =>
    cases h' with
    | here hc' => exact ⟨rfl, Option.some.inj (hc.symm.trans hc')⟩
  | @nested script list i l n place path parent c hc hlist hstands ih =>
    cases h' with
    | nested hc' hlist' hstands' =>
      obtain rfl := Option.some.inj (hc.symm.trans hc')
      have hparent := apart [i] [i] parent (.here hc)
      obtain ⟨rfl, rfl⟩ :=
        hlist.position_eq hlist' hparent hstands.ne_nil hstands'.ne_nil
      have hbelow : ∀ place path c, Stands list place path c → c.numbersApart = true :=
        fun place path c hstands => apart _ _ c (.nested hc hlist hstands)
      obtain ⟨rfl, rfl⟩ := ih hbelow hstands'
      exact ⟨rfl, rfl⟩

theorem exists_stands_of_ne_nil (h : script ≠ []) : ∃ c, Stands script [0] [0] c := by
  cases script with
  | nil => exact absurd rfl h
  | cons c rest => exact ⟨c, .here rfl⟩

/-- The place of what stands below something that stands somewhere. -/
theorem Stands.append {place path : List Nat} {parent c : Command} {l n : Nat} {list : Script}
    {place' path' : List Nat} (h : Stands script place path parent)
    (hlist : parent.HasList l n list)
    (h' : Stands list place' path' c) :
    Stands script (place ++ l :: place') (path ++ n :: path') c := by
  induction h with
  | here hc => exact .nested hc hlist h'
  | nested hc hlist' _ ih => exact .nested hc hlist' (ih hlist)

/-- Paths are different exactly if they tell the lists below every command apart. -/
theorem nodup_paths_iff :
    ((Command.visits script).map (·.path)).Nodup ↔ NumbersApart script := by
  rw [(enumerates_visits script).nodup_map_iff]
  constructor
  · intro hinj
    refine numbersApart_iff.2 fun place path c hstands => ?_
    match c, hstands with
    | .act .., _ => rfl
    | .route _ _ [], _ => rfl
    | .route order body (first :: rest), hstands =>
      by_contra hclash
      obtain ⟨hfirst, hbody⟩ : first ≠ [] ∧ body ≠ [] := by
        simpa [Command.numbersApart] using hclash
      obtain ⟨c, hc⟩ := exists_stands_of_ne_nil hfirst
      obtain ⟨c', hc'⟩ := exists_stands_of_ne_nil hbody
      have hplace := hinj _ _ ⟨path ++ [0, 0], c⟩ ⟨path ++ [0, 0], c'⟩
        (hstands.append (.branch rfl) hc) (hstands.append .body hc') rfl
      simp at hplace
  · rintro apart p q ⟨path, c⟩ ⟨path', c'⟩ h h' rfl
    exact (h.unique apart h').1

end Script

end Adventure
