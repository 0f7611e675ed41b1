import Mathlib.Data.List.Nodup

/-!
# Places

A place in something that is nested is a list of numbers, from the outside in.  `Enumerates At xs`
says that a list has what stands at the places, each once and in the order of the places.  The
lemmas below follow how such a list is put together: from parts that stand one behind the other,
from lists that are joined, and by leaving things out.
-/

namespace Adventure

/-! ## Order -/

/-- Whether a place comes before another: those that go on from it come after it. -/
def Before (p q : List Nat) : Prop := List.Lex (· < ·) p q

theorem Before.ne {p q : List Nat} (h : Before p q) : p ≠ q := by
  unfold Before at h
  induction h with
  | nil => exact nofun
  | cons _ ih => exact fun heq => ih (List.cons.inj heq).2
  | rel hlt => exact fun heq => absurd (List.cons.inj heq).1 (Nat.ne_of_lt hlt)

theorem before_append {p q : List Nat} (h : Before p q) (hfront : ¬p <+: q) (r s : List Nat) :
    Before (p ++ r) (q ++ s) := by
  unfold Before at h
  induction h with
  | nil => exact absurd (List.nil_prefix ..) hfront
  | cons _ ih =>
    refine .cons (ih fun hpq => hfront ?_)
    exact List.cons_prefix_cons.2 ⟨rfl, hpq⟩
  | rel hlt => exact .rel hlt

/-! ## Enumerations -/

/-- Whether a list has all that stands at some place, each once and in the order of the places. -/
def Enumerates {α : Type} (At : List Nat → α → Prop) (xs : List α) : Prop :=
  ∃ placed : List (List Nat × α), placed.map (·.2) = xs ∧
    placed.Pairwise (fun a b => Before a.1 b.1) ∧ ∀ p a, (p, a) ∈ placed ↔ At p a

/-- What stands at a place that begins with the number of a thing in a list, counting from `k`, and
goes on below the thing. -/
def Numbered {α γ : Type} (At : Nat → γ → List Nat → α → Prop) (k : Nat) (xs : List γ)
    (p : List Nat) (a : α) : Prop :=
  ∃ i x q, xs[i]? = some x ∧ p = (k + i) :: q ∧ At (k + i) x q a

section Numbered

variable {α γ : Type} {At : Nat → γ → List Nat → α → Prop} {k : Nat} {p : List Nat} {a : α}

theorem not_numbered_nil : ¬Numbered At k [] p a := by
  rintro ⟨i, x, q, hx, -, -⟩
  cases hx

theorem numbered_cons_iff {x : γ} {xs : List γ} :
    Numbered At k (x :: xs) p a ↔ (∃ q, p = k :: q ∧ At k x q a) ∨ Numbered At (k + 1) xs p a := by
  constructor
  · rintro ⟨i, y, q, hy, rfl, hat⟩
    cases i with
    | zero =>
      obtain rfl := Option.some.inj hy
      exact .inl ⟨q, rfl, hat⟩
    | succ i =>
      have hi : k + (i + 1) = k + 1 + i := by omega
      exact .inr ⟨i, y, q, hy, by rw [hi], hi ▸ hat⟩
  · rintro (⟨q, rfl, hat⟩ | ⟨i, y, q, hy, rfl, hat⟩)
    · exact ⟨0, x, q, rfl, rfl, hat⟩
    · have hi : k + 1 + i = k + (i + 1) := by omega
      exact ⟨i + 1, y, q, hy, by rw [hi], hi ▸ hat⟩

end Numbered

/-- Whether every place begins with a number below `n`. -/
def HeadsBelow {α : Type} (n : Nat) (At : List Nat → α → Prop) : Prop :=
  ∀ p a, At p a → ∃ i < n, ∃ q, p = i :: q

namespace Enumerates

variable {α β γ : Type} {At : List Nat → α → Prop} {xs ys : List α}

theorem congr {At' : List Nat → α → Prop} (h : Enumerates At xs) (iff : ∀ p a, At p a ↔ At' p a) :
    Enumerates At' xs := by
  obtain ⟨placed, hxs, hordered, hmem⟩ := h
  exact ⟨placed, hxs, hordered, fun p a => (hmem p a).trans (iff p a)⟩

theorem mem_iff (h : Enumerates At xs) {a : α} : a ∈ xs ↔ ∃ p, At p a := by
  obtain ⟨placed, rfl, -, hmem⟩ := h
  simp only [List.mem_map, Prod.exists, exists_eq_right, hmem]

/-- There is one thing at a place. -/
theorem unique (h : Enumerates At xs) {p : List Nat} {a b : α} (ha : At p a) (hb : At p b) :
    a = b := by
  obtain ⟨placed, rfl, hordered, hmem⟩ := h
  have hnodup : (placed.map (·.1)).Nodup := List.pairwise_map.2 (hordered.imp Before.ne)
  exact (Prod.mk.inj (List.inj_on_of_nodup_map hnodup ((hmem p a).2 ha) ((hmem p b).2 hb) rfl)).2

/-- Something tells the members apart if it tells the places apart. -/
theorem nodup_map_iff (h : Enumerates At xs) {f : α → β} :
    (xs.map f).Nodup ↔ ∀ p q a b, At p a → At q b → f a = f b → p = q := by
  obtain ⟨placed, rfl, hordered, hmem⟩ := h
  rw [List.map_map]
  constructor
  · intro hnodup p q a b ha hb heq
    exact congrArg (·.1) (List.inj_on_of_nodup_map hnodup ((hmem p a).2 ha) ((hmem q b).2 hb) heq)
  · intro hinj
    refine List.pairwise_map.2 (hordered.imp_of_mem fun {a b} ha hb hlt heq => hlt.ne ?_)
    exact hinj a.1 b.1 a.2 b.2 ((hmem _ _).1 ha) ((hmem _ _).1 hb) heq

/-! ### Parts -/

theorem nil (h : ∀ p a, ¬At p a) : Enumerates At [] :=
  ⟨[], rfl, .nil, fun p a => iff_of_false List.not_mem_nil (h p a)⟩

theorem single (p : List Nat) (a : α) : Enumerates (fun q b => q = p ∧ b = a) [a] := by
  refine ⟨[(p, a)], rfl, List.pairwise_singleton .., fun q b => ?_⟩
  rw [List.mem_singleton, Prod.mk.injEq]

theorem append {At' : List Nat → α → Prop} (h : Enumerates At xs) (h' : Enumerates At' ys)
    (before : ∀ p a q b, At p a → At' q b → Before p q) :
    Enumerates (fun p a => At p a ∨ At' p a) (xs ++ ys) := by
  obtain ⟨placed, rfl, hordered, hmem⟩ := h
  obtain ⟨placed', rfl, hordered', hmem'⟩ := h'
  refine ⟨placed ++ placed', List.map_append, ?_, fun p a => ?_⟩
  · refine List.pairwise_append.2 ⟨hordered, hordered', fun a ha b hb => ?_⟩
    exact before a.1 a.2 b.1 b.2 ((hmem _ _).1 ha) ((hmem' _ _).1 hb)
  · rw [List.mem_append, hmem, hmem']

/-- Places that go on from one number. -/
theorem under (i : Nat) (h : Enumerates At xs) :
    Enumerates (fun p a => ∃ q, p = i :: q ∧ At q a) xs := by
  obtain ⟨placed, rfl, hordered, hmem⟩ := h
  refine ⟨placed.map fun a => (i :: a.1, a.2), by simp [Function.comp_def], ?_, fun p a => ?_⟩
  · exact List.pairwise_map.2 (hordered.imp fun hlt => List.Lex.cons hlt)
  · simp only [List.mem_map, Prod.mk.injEq, Prod.exists, hmem]
    constructor
    · rintro ⟨q, b, hat, rfl, rfl⟩
      exact ⟨q, rfl, hat⟩
    · rintro ⟨q, rfl, hat⟩
      exact ⟨q, a, hat, rfl, rfl⟩

theorem numbered_nil {At : Nat → γ → List Nat → α → Prop} {k : Nat} :
    Enumerates (Numbered At k []) [] := nil fun _ _ => not_numbered_nil

theorem numbered_cons {At : Nat → γ → List Nat → α → Prop} {k : Nat} {x : γ} {rest : List γ}
    (first : Enumerates (At k x) xs) (others : Enumerates (Numbered At (k + 1) rest) ys) :
    Enumerates (Numbered At k (x :: rest)) (xs ++ ys) := by
  refine ((first.under k).append others ?_).congr fun p a => numbered_cons_iff.symm
  rintro p a q b ⟨p', rfl, -⟩ ⟨i, y, q', -, rfl, -⟩
  exact .rel (by omega)

/-- Places that go on from one place. -/
theorem beneath (q : List Nat) (h : Enumerates At xs) :
    Enumerates (fun p a => ∃ r, p = q ++ r ∧ At r a) xs := by
  induction q with
  | nil => exact h.congr fun p a => by simp
  | cons i q ih =>
    refine (ih.under i).congr fun p a => ?_
    constructor
    · rintro ⟨_, rfl, r, rfl, hat⟩
      exact ⟨r, rfl, hat⟩
    · rintro ⟨r, rfl, hat⟩
      exact ⟨q ++ r, rfl, r, rfl, hat⟩

theorem filterMap (h : Enumerates At xs) (f : α → Option β) :
    Enumerates (fun p b => ∃ a, At p a ∧ f a = some b) (xs.filterMap f) := by
  obtain ⟨placed, rfl, hordered, hmem⟩ := h
  refine ⟨placed.filterMap fun a => (f a.2).map fun b => (a.1, b), ?_, ?_, fun p b => ?_⟩
  · rw [List.map_filterMap, List.filterMap_map]
    congr 1
    funext a
    simp [Option.map_map, Function.comp_def]
  · refine List.pairwise_filterMap.2 (hordered.imp fun {a a'} hlt b hb b' hb' => ?_)
    obtain ⟨_, _, rfl⟩ := Option.map_eq_some_iff.1 hb
    obtain ⟨_, _, rfl⟩ := Option.map_eq_some_iff.1 hb'
    exact hlt
  · simp only [List.mem_filterMap, Option.map_eq_some_iff, Prod.mk.injEq, Prod.exists, hmem]
    constructor
    · rintro ⟨q, a, hat, b', hb, rfl, rfl⟩
      exact ⟨a, hat, hb⟩
    · rintro ⟨a, hat, hb⟩
      exact ⟨p, a, hat, b, hb, rfl, rfl⟩

/-- A first list, of things below 0. -/
theorem first (h : Enumerates At xs) :
    Enumerates (fun p a => ∃ q, p = 0 :: q ∧ At q a) xs ∧
      HeadsBelow 1 fun p a => ∃ q, p = 0 :: q ∧ At q a :=
  ⟨h.under 0, fun _ _ ⟨q, heq, _⟩ => ⟨0, by decide, q, heq⟩⟩

/-- One more list, of things below a number that is greater than the numbers so far. -/
theorem extend {At' : List Nat → α → Prop} {ys : List α} {n : Nat}
    (h : Enumerates At xs ∧ HeadsBelow n At) (h' : Enumerates At' ys) :
    Enumerates (fun p a => At p a ∨ ∃ q, p = n :: q ∧ At' q a) (xs ++ ys) ∧
      HeadsBelow (n + 1) fun p a => At p a ∨ ∃ q, p = n :: q ∧ At' q a := by
  refine ⟨h.1.append (h'.under n) ?_, ?_⟩
  · rintro p a _ _ hat ⟨q, rfl, -⟩
    obtain ⟨i, hlt, q', rfl⟩ := h.2 p a hat
    exact .rel hlt
  · rintro p a (hat | ⟨q, rfl, -⟩)
    · obtain ⟨i, hlt, q, rfl⟩ := h.2 p a hat
      exact ⟨i, by omega, q, rfl⟩
    · exact ⟨n, by omega, q, rfl⟩

/-! ### Lists of lists -/

/-- Lists that are joined, each from things below one number. -/
theorem numbered {At : Nat → γ → List Nat → α → Prop} {f : γ → List α} {k : Nat} {ys : List γ}
    (h : ∀ i y, ys[i]? = some y → Enumerates (At (k + i) y) (f y)) :
    Enumerates (Numbered At k ys) (ys.flatMap f) := by
  induction ys generalizing k with
  | nil => exact .numbered_nil
  | cons y rest ih =>
    refine .numbered_cons (h 0 y rfl) (ih fun i z hz => ?_)
    have hi : k + 1 + i = k + (i + 1) := by omega
    rw [hi]
    exact h (i + 1) z hz

theorem map (f : γ → α) (ys : List γ) :
    Enumerates (Numbered (fun _ y q a => q = [] ∧ a = f y) 0 ys) (ys.map f) := by
  rw [List.map_eq_flatMap]
  exact numbered fun i y _ => single [] (f y)

/-- A list of what things and their positions are mapped to. -/
theorem mapIdx (f : γ → Nat → α) (ys : List γ) :
    Enumerates (Numbered (fun i y q a => q = [] ∧ a = f y i) 0 ys)
      (ys.zipIdx.map fun (y, i) => f y i) := by
  refine (map (fun (y, i) => f y i) ys.zipIdx).congr fun p a => ?_
  constructor
  · rintro ⟨i, ⟨y, j⟩, q, hy, rfl, rfl, rfl⟩
    rw [List.getElem?_zipIdx, Option.map_eq_some_iff] at hy
    obtain ⟨_, hy, heq⟩ := hy
    obtain ⟨rfl, rfl⟩ := Prod.mk.inj heq
    exact ⟨i, _, [], hy, rfl, rfl, rfl⟩
  · rintro ⟨i, y, q, hy, rfl, rfl, rfl⟩
    exact ⟨i, (y, 0 + i), [], by simp [hy], rfl, rfl, rfl⟩

/-- Lists that are joined, each from things below one place, if none of these places goes on from
another. -/
theorem flatMap {Below : α → List Nat → β → Prop} {f : α → List β} (h : Enumerates At xs)
    (hbelow : ∀ a, Enumerates (Below a) (f a))
    (hfront : ∀ p q a b, At p a → At q b → p <+: q → p = q) :
    Enumerates (fun p b => ∃ q a, At q a ∧ ∃ r, p = q ++ r ∧ Below a r b) (xs.flatMap f) := by
  obtain ⟨placed, rfl, hordered, hmem⟩ := h
  have hapart : placed.Pairwise fun a b => Before a.1 b.1 ∧ ¬a.1 <+: b.1 := by
    refine hordered.imp_of_mem fun {a b} ha hb hlt => ⟨hlt, fun hpre => hlt.ne ?_⟩
    exact hfront a.1 b.1 a.2 b.2 ((hmem _ _).1 ha) ((hmem _ _).1 hb) hpre
  suffices hplaced : Enumerates (fun p b => ∃ a ∈ placed, ∃ r, p = a.1 ++ r ∧ Below a.2 r b)
      ((placed.map (·.2)).flatMap f) by
    refine hplaced.congr fun p b => ?_
    simp only [Prod.exists, hmem]
  clear hmem hordered
  induction placed with
  | nil => exact nil fun p b => by simp
  | cons a rest ih =>
    obtain ⟨hfirst, hrest⟩ := List.pairwise_cons.1 hapart
    refine (((hbelow a.2).beneath a.1).append (ih hrest) ?_).congr fun p b => by simp
    rintro p _ q _ ⟨r, rfl, -⟩ ⟨b, hb, r', rfl, -⟩
    exact before_append (hfirst b hb).1 (hfirst b hb).2 r r'

end Enumerates

end Adventure
