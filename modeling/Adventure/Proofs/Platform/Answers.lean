import Mathlib.Data.List.Dedup
import Mathlib.Data.List.Nodup
import Adventure.Proofs.Platform.Traffic

/-!
# Answers that are kept

The platform keeps the answers to the latest requests, at most `answerLimit` of them.  So an answer
that was received is kept exactly if there are fewer answers than that to later requests.
-/

namespace Adventure

/-! ## Maps with numbers as keys -/

namespace SortedMap

variable {ν : Type}

theorem lookup_append_of_ne {k : Nat} {l : List (Nat × ν)} (h : ∀ e ∈ l, e.1 ≠ k)
    (more : List (Nat × ν)) : lookup k (l ++ more) = lookup k more := by
  induction l with
  | nil => rfl
  | cons e l ih =>
    obtain ⟨he, hl⟩ := List.forall_mem_cons.1 h
    have hne : compare k e.1 ≠ .eq := fun heq => he (Nat.compare_eq_eq.1 heq).symm
    rw [List.cons_append, lookup, if_neg hne, ih hl]

theorem lookup_eq_none {k : Nat} {l : List (Nat × ν)} (h : ∀ e ∈ l, e.1 ≠ k) :
    lookup k l = none := by
  have happend := lookup_append_of_ne h []
  rwa [List.append_nil] at happend

theorem lookup_isSome_iff {k : Nat} {l : List (Nat × ν)} :
    (lookup k l).isSome = true ↔ k ∈ l.map (·.1) := by
  induction l with
  | nil => simp [lookup]
  | cons e l ih =>
    by_cases heq : compare k e.1 = .eq
    · simp [lookup, Nat.compare_eq_eq.1 heq]
    · have hne : ¬ k = e.1 := fun h => heq (Nat.compare_eq_eq.2 h)
      simp [lookup, heq, hne, ih]

theorem keys_increasing (m : SortedMap Nat ν) : m.keys.Pairwise (· < ·) :=
  List.pairwise_map.2 (m.ordered.imp fun h => Nat.compare_eq_lt.1 h)

/-- Among entries in key order, one of the last `limit` ones is one with fewer entries than that
behind it. -/
theorem lookup_drop {l : List (Nat × ν)} (h : (l.map (·.1)).Pairwise (· < ·)) (k limit : Nat) :
    lookup k (l.drop (l.length - limit)) =
      if ((l.map (·.1)).filter (k < ·)).length < limit then lookup k l else none := by
  by_cases hk : k ∈ l.map (·.1)
  · obtain ⟨⟨k', v⟩, hmem, rfl⟩ := List.mem_map.1 hk
    obtain ⟨before, later, rfl⟩ := List.append_of_mem hmem
    simp only [List.map_append, List.map_cons, List.pairwise_append, List.pairwise_cons,
      List.mem_map, List.mem_cons, forall_exists_index, and_imp, forall_eq_or_imp] at h
    obtain ⟨-, ⟨hlater, -⟩, hbefore⟩ := h
    have hlt : ∀ e ∈ before, e.1 < k' := fun e he => (hbefore e.1 e he rfl).1
    have hgt : ∀ e ∈ later, k' < e.1 := fun e he => hlater e.1 e he rfl
    have hfilter : (((before ++ (k', v) :: later).map (·.1)).filter (k' < ·)).length =
        later.length := by
      have hno : (before.map (·.1)).filter (k' < ·) = [] := by
        refine List.filter_eq_nil_iff.2 fun key hkey => ?_
        obtain ⟨e, he, rfl⟩ := List.mem_map.1 hkey
        simpa using Nat.le_of_lt (hlt e he)
      have hall : (later.map (·.1)).filter (k' < ·) = later.map (·.1) := by
        refine List.filter_eq_self.2 fun key hkey => ?_
        obtain ⟨e, he, rfl⟩ := List.mem_map.1 hkey
        simpa using hgt e he
      simp [hno, hall]
    have hfound : lookup k' ((k', v) :: later) = some v := by simp [lookup]
    rw [hfilter, lookup_append_of_ne (fun e he => Nat.ne_of_lt (hlt e he)), hfound,
      List.drop_append]
    split
    · next hfew =>
      have hzero : (before ++ (k', v) :: later).length - limit - before.length = 0 := by
        simp only [List.length_append, List.length_cons]
        omega
      have hdropped : ∀ e ∈ before.drop ((before ++ (k', v) :: later).length - limit),
          e.1 ≠ k' := fun e he => Nat.ne_of_lt (hlt e (List.mem_of_mem_drop he))
      rw [lookup_append_of_ne hdropped, hzero]
      exact hfound
    · next hmany =>
      obtain ⟨n, hn⟩ :
          ∃ n, (before ++ (k', v) :: later).length - limit - before.length = n + 1 := by
        refine Nat.exists_eq_add_one.2 ?_
        simp only [List.length_append, List.length_cons]
        omega
      rw [hn, List.drop_succ_cons]
      refine lookup_eq_none fun e he => ?_
      rcases List.mem_append.1 he with he | he
      · exact Nat.ne_of_lt (hlt e (List.mem_of_mem_drop he))
      · exact Nat.ne_of_gt (hgt e (List.mem_of_mem_drop he))
  · have hne : ∀ e ∈ l, e.1 ≠ k := fun e he heq => hk (heq ▸ List.mem_map_of_mem he)
    rw [lookup_eq_none hne, lookup_eq_none fun e he => hne e (List.mem_of_mem_drop he), ite_self]

theorem find?_keepLargest (m : SortedMap Nat ν) (k limit : Nat) :
    (m.keepLargest limit).find? k =
      if (m.keys.filter (k < ·)).length < limit then m.find? k else none :=
  lookup_drop m.keys_increasing k limit

theorem mem_keys_iff (m : SortedMap Nat ν) (k : Nat) : k ∈ m.keys ↔ (m.find? k).isSome = true :=
  lookup_isSome_iff.symm

theorem mem_keys_insert (m : SortedMap Nat ν) (k k' : Nat) (v : ν) :
    k' ∈ (m.insert k v).keys ↔ k' = k ∨ k' ∈ m.keys := by
  rw [mem_keys_iff, mem_keys_iff]
  by_cases h : k' = k
  · simp [h]
  · simp [h, find?_insert_of_ne m h v]

end SortedMap

/-! ## Collected answers -/

namespace Platform

variable (p : Platform) (project : Project) (id : Nat)

/-- The later requests that have an answer, in the inbox or collected. -/
def laterAnswers : List Nat :=
  (p.answers.keys ++ p.inbox.map (·.id)).dedup.filter (id < ·)

/-- The answer to a request that came last. -/
def latestAnswer? : Option Answer :=
  (p.inbox.reverse.find? fun a => a.id == id).or (p.answers.find? id)

theorem exists_latestAnswer {p : Platform} {id : Nat} (h : id ∈ p.inbox.map (·.id)) :
    ∃ a, p.latestAnswer? id = some a := by
  obtain ⟨a, ha, rfl⟩ := List.mem_map.1 h
  have hlatest : (p.inbox.reverse.find? fun b => b.id == a.id).isSome :=
    List.find?_isSome.2 ⟨a, List.mem_reverse.2 ha, by simp⟩
  obtain ⟨b, hb⟩ := Option.isSome_iff_exists.1 hlatest
  exact ⟨b, by rw [latestAnswer?, hb, Option.some_or]⟩

/-- Answers that are put in the place of older ones. -/
theorem find?_insert_all (inbox : List Answer) (answers : SortedMap Nat Answer) :
    (inbox.foldl (fun answers a => answers.insert a.id a) answers).find? id =
      (inbox.reverse.find? fun a => a.id == id).or (answers.find? id) := by
  induction inbox generalizing answers with
  | nil => rfl
  | cons a inbox ih =>
    rw [List.foldl_cons, ih, List.reverse_cons, List.find?_append, Option.or_assoc]
    congr 1
    by_cases h : a.id = id
    · simp [h]
    · simp [h, SortedMap.find?_insert_of_ne answers (Ne.symm h) a]

theorem mem_keys_insert_all (inbox : List Answer) (answers : SortedMap Nat Answer) :
    id ∈ (inbox.foldl (fun answers a => answers.insert a.id a) answers).keys ↔
      id ∈ answers.keys ∨ id ∈ inbox.map (·.id) := by
  induction inbox generalizing answers with
  | nil => simp
  | cons a inbox ih =>
    rw [List.foldl_cons, ih, SortedMap.mem_keys_insert, List.map_cons, List.mem_cons]
    tauto

/-- The latest answer is kept exactly if there are few answers to later requests. -/
theorem find?_collect :
    (p.collect project).answers.find? id =
      if (p.laterAnswers id).length < answerLimit then p.latestAnswer? id else none := by
  rw [answers_collect, SortedMap.find?_keepLargest, find?_insert_all]
  have hkeys : (p.inbox.foldl (fun answers a => answers.insert a.id a) p.answers).keys.Perm
      (p.answers.keys ++ p.inbox.map (·.id)).dedup := by
    refine (List.perm_ext_iff_of_nodup ?_ (List.nodup_dedup _)).2 fun k => ?_
    · exact (SortedMap.keys_increasing _).imp fun h => Nat.ne_of_lt h
    · rw [mem_keys_insert_all, List.mem_dedup, List.mem_append]
  have hlength := (hkeys.filter (id < ·)).length_eq
  rw [hlength]
  rfl

theorem hasAnswer_eq : p.hasAnswer id = (p.answers.find? id).isSome := rfl

end Platform

end Adventure
