import Mathlib.Data.List.TakeWhile
import Adventure.World.Message

/-!
# Directives that are read

Where a directive begins, the longest one there is read: its argument goes on to the last closing
bracket before the next backslash.  It is replaced by what it stands for, or left as it is where it
stands for nothing, and the reading goes on behind it.  As no directive reaches over a backslash, a
text is read one backslash at a time, and what was put in is not read again.

That the longest directive is read makes what stands behind a directive matter: with another closing
bracket before the next backslash, the argument goes on up to that one.
-/

namespace Adventure.Message

variable {context : MessageContext} {cs segment rest args tail : List Char} {letter : Char}

/-! ## What is replaced -/

/-- The text begins with a directive: a letter between a backslash and a bracket, and an argument up
to a closing bracket that holds no backslash. -/
structure Directive (text : List Char) (letter : Char) (args rest : List Char) : Prop where
  written : text = '\\' :: letter :: '[' :: (args ++ ']' :: rest)
  lettered : isLetter letter = true
  nonempty : args ≠ []
  unbroken : '\\' ∉ args

/-- Of the directives that the text begins with, the one with the longest argument. -/
structure Longest (text : List Char) (letter : Char) (args rest : List Char) : Prop extends
    Directive text letter args rest where
  longest : ∀ other more behind, Directive text other more behind → more.length ≤ args.length

/-- What a directive is replaced by. -/
def substitute (context : MessageContext) (letter : Char) (args : List Char) : List Char :=
  match resolve? context letter.toLower args with
  | some text => text.toList
  | none => '\\' :: letter :: '[' :: (args ++ [']'])

/-- The text with its directives replaced, the first one first and the longest one of those that
begin at one place.  Nothing that was put in is looked at again. -/
inductive Replaced (context : MessageContext) : List Char → List Char → Prop
  | done : Replaced context [] []
  | keep {c cs out} : (∀ letter args rest, ¬ Directive (c :: cs) letter args rest) →
      Replaced context cs out → Replaced context (c :: cs) (c :: out)
  | replace {text letter args rest out} : Longest text letter args rest →
      Replaced context rest out → Replaced context text (substitute context letter args ++ out)

theorem Directive.append (h : Directive cs letter args tail) (rest : List Char) :
    Directive (cs ++ rest) letter args (tail ++ rest) :=
  ⟨by simp [h.written], h.lettered, h.nonempty, h.unbroken⟩

/-- A directive goes on up to a closing bracket behind it. -/
theorem Directive.extend {more behind : List Char}
    (h : Directive cs letter args (more ++ ']' :: behind)) (hmore : '\\' ∉ more) :
    Directive cs letter (args ++ ']' :: more) behind :=
  ⟨by simp [h.written], h.lettered, by simp, by simp [h.unbroken, hmore]⟩

/-- Where a directive begins, there is a longest one. -/
theorem Directive.exists_longest {rest : List Char} (h : Directive cs letter args rest) :
    ∃ letter args rest, Longest cs letter args rest := by
  -- A longer argument leaves less behind it.
  induction hn : rest.length using Nat.strongRecOn generalizing letter args rest with
  | ind n ih =>
    by_cases hmore : ∃ other more behind, Directive cs other more behind ∧ args.length < more.length
    · obtain ⟨other, more, behind, hdirective, hlt⟩ := hmore
      have hlength := congrArg List.length (h.written.symm.trans hdirective.written)
      simp only [List.length_cons, List.length_append] at hlength
      exact ih behind.length (by omega) hdirective rfl
    · refine ⟨letter, args, rest, h, fun other more behind hdirective => Nat.not_lt.1 fun hlt => ?_⟩
      exact hmore ⟨other, more, behind, hdirective, hlt⟩

/-- The longest directive ends at the last closing bracket before the next backslash. -/
theorem Longest.notMem (h : Longest cs letter args (tail ++ rest)) (htail : '\\' ∉ tail) :
    ']' ∉ tail := by
  intro hbracket
  obtain ⟨more, behind, rfl⟩ := List.append_of_mem hbracket
  have hmore : '\\' ∉ more := fun hmem => htail (by simp [hmem])
  have hlonger : Directive cs letter (args ++ ']' :: more) (behind ++ rest) :=
    Directive.extend (by simpa using h.toDirective) hmore
  have hless := h.longest letter _ _ hlonger
  simp only [List.length_append, List.length_cons] at hless
  omega

/-! ## Arguments -/

theorem splitFirst?_append {c : Char} (h : c ∉ args) :
    splitFirst? c (args ++ c :: tail) = some (args, tail) := by
  have hargs : ∀ d ∈ args, decide (d ≠ c) = true := fun d hd => by
    simpa using ne_of_mem_of_not_mem hd h
  have hbehind : (args ++ c :: tail).dropWhile (· ≠ c) = c :: tail := by
    rw [List.dropWhile_append_of_pos hargs, List.dropWhile_cons_of_neg (by simp)]
  have hbefore : (args ++ c :: tail).takeWhile (· ≠ c) = args := by
    rw [List.takeWhile_append_of_pos hargs, List.takeWhile_cons_of_neg (by simp), List.append_nil]
  rw [splitFirst?, hbehind, hbefore]

theorem splitFirst?_of_notMem {c : Char} (h : c ∉ cs) : splitFirst? c cs = none := by
  have hbehind : cs.dropWhile (· ≠ c) = [] :=
    List.dropWhile_eq_nil_iff.2 fun d hd => by simpa using ne_of_mem_of_not_mem hd h
  rw [splitFirst?, hbehind]

theorem splitLast?_append {c : Char} (h : c ∉ tail) :
    splitLast? c (args ++ c :: tail) = some (args, tail) := by
  have hreverse : (args ++ c :: tail).reverse = tail.reverse ++ c :: args.reverse := by simp
  rw [splitLast?, hreverse, splitFirst?_append (by simpa using h)]
  simp

/-- There is one last place only. -/
theorem last_unique {c : Char} {as bs : List Char} (heq : args ++ c :: tail = as ++ c :: bs)
    (h : c ∉ tail) (hbs : c ∉ bs) : args = as ∧ tail = bs := by
  have hsplit : some (args, tail) = some (as, bs) := by
    rw [← splitLast?_append h, heq, splitLast?_append hbs]
  simpa using hsplit

theorem splitArgument?_append (hargs : args ≠ []) (htail : ']' ∉ tail) :
    splitArgument? (args ++ ']' :: tail) = some (args, tail) := by
  rw [splitArgument?, splitLast?_append htail]
  simpa [Option.filter] using hargs

theorem splitArgument?_of_empty (htail : ']' ∉ tail) : splitArgument? (']' :: tail) = none := by
  rw [splitArgument?, ← List.nil_append (']' :: tail), splitLast?_append htail]
  rfl

theorem splitArgument?_of_notMem (h : ']' ∉ cs) : splitArgument? cs = none := by
  rw [splitArgument?, splitLast?, splitFirst?_of_notMem (by simpa using h)]
  rfl

/-- What stands before the last place of something that a list holds, and behind it. -/
theorem exists_last {c : Char} (h : c ∈ cs) :
    ∃ before behind, cs = before ++ c :: behind ∧ c ∉ behind := by
  obtain ⟨behind, before, hreverse, hnot⟩ := List.eq_append_cons_of_mem (List.mem_reverse.2 h)
  refine ⟨before.reverse, behind.reverse, ?_, by simpa using hnot⟩
  rw [← List.reverse_reverse cs, hreverse]
  simp

/-! ## Segments -/

/-- In a segment, what is replaced goes up to the last closing bracket. -/
theorem expandSegment_of_directive (h : Directive ('\\' :: segment) letter args tail)
    (htail : ']' ∉ tail) :
    expandSegment context segment = substitute context letter args ++ tail := by
  obtain ⟨hwritten, hletter, hargs, -⟩ := h
  obtain rfl := List.tail_eq_of_cons_eq hwritten
  simp only [expandSegment, if_pos hletter, splitArgument?_append hargs htail, substitute]
  cases resolve? context letter.toLower args with
  | some text => rfl
  | none => simp

theorem expandSegment_of_none (hsegment : '\\' ∉ segment)
    (h : ∀ letter args tail, ¬ Directive ('\\' :: segment) letter args tail) :
    expandSegment context segment = '\\' :: segment := by
  unfold expandSegment
  split
  · next letter body =>
    have hnone : isLetter letter = true → splitArgument? body = none := by
      intro hletter
      by_cases hbracket : ']' ∈ body
      · obtain ⟨args, tail, rfl, htail⟩ := exists_last hbracket
        have hunbroken : '\\' ∉ args := fun hmem => hsegment (by simp [hmem])
        have hargs : args = [] := Classical.not_not.1 fun hargs =>
          h letter args tail ⟨rfl, hletter, hargs, hunbroken⟩
        rw [hargs]
        exact splitArgument?_of_empty htail
      · exact splitArgument?_of_notMem hbracket
    split
    · next hletter => rw [hnone hletter]
    · rfl
  · rfl

/-! ## Texts, one backslash at a time -/

/-- `expand` on the characters of a text. -/
def expandChars (context : MessageContext) (cs : List Char) : List Char :=
  (segments cs).1 ++ (segments cs).2.flatMap (expandSegment context)

theorem toList_expand (content : String) :
    (expand context content).toList = expandChars context content.toList :=
  String.toList_ofList

theorem expand_eq_iff {content result : String} :
    expand context content = result ↔ expandChars context content.toList = result.toList := by
  rw [← toList_expand, String.toList_inj]

theorem segments_cons (c : Char) (cs : List Char) :
    segments (c :: cs) =
      if c = '\\' then ([], (segments cs).1 :: (segments cs).2)
      else (c :: (segments cs).1, (segments cs).2) := rfl

theorem segments_append_backslash (as bs : List Char) :
    segments (as ++ '\\' :: bs) =
      ((segments as).1, (segments as).2 ++ (segments ('\\' :: bs)).2) := by
  induction as with
  | nil => simp [segments]
  | cons a as ih =>
    rw [List.cons_append, segments_cons, ih, segments_cons a as]
    split <;> simp

theorem segments_of_notMem (h : '\\' ∉ cs) : segments cs = (cs, []) := by
  induction cs with
  | nil => rfl
  | cons c cs ih =>
    have hc : c ≠ '\\' := fun hc => h (by simp [hc])
    rw [segments, ih (List.not_mem_of_not_mem_cons h)]
    simp [hc]

theorem expandChars_of_notMem (h : '\\' ∉ cs) : expandChars context cs = cs := by
  simp [expandChars, segments_of_notMem h]

/-- Nothing reaches over a backslash. -/
theorem expandChars_append_backslash (as bs : List Char) :
    expandChars context (as ++ '\\' :: bs) =
      expandChars context as ++ expandChars context ('\\' :: bs) := by
  have hfirst : (segments ('\\' :: bs)).1 = [] := by simp [segments]
  simp [expandChars, segments_append_backslash, hfirst]

theorem expandChars_segment (h : '\\' ∉ segment) :
    expandChars context ('\\' :: segment) = expandSegment context segment := by
  simp [expandChars, segments, segments_of_notMem h]

/-- A text goes on up to its next backslash. -/
theorem exists_segment (cs : List Char) :
    ∃ segment rest, cs = segment ++ rest ∧ '\\' ∉ segment ∧ ∀ c ∈ rest.head?, c = '\\' := by
  by_cases h : '\\' ∈ cs
  · obtain ⟨segment, rest, rfl, hnot⟩ := List.eq_append_cons_of_mem h
    exact ⟨segment, '\\' :: rest, rfl, hnot, by simp⟩
  · exact ⟨cs, [], by simp, h, by simp⟩

theorem takeWhile_segment (h : '\\' ∉ segment) (hrest : ∀ c ∈ rest.head?, c = '\\') :
    (segment ++ rest).takeWhile (· ≠ '\\') = segment := by
  have hplain : ∀ c ∈ segment, decide (c ≠ '\\') = true := fun c hc => by
    simpa using ne_of_mem_of_not_mem hc h
  rw [List.takeWhile_append_of_pos hplain]
  cases rest with
  | nil => simp
  | cons c rest =>
    obtain rfl := hrest c rfl
    simp

theorem expandChars_append {as bs : List Char} (hbs : ∀ c ∈ bs.head?, c = '\\') :
    expandChars context (as ++ bs) = expandChars context as ++ expandChars context bs := by
  cases bs with
  | nil => simp [expandChars_of_notMem]
  | cons b bs =>
    obtain rfl := hbs b rfl
    exact expandChars_append_backslash as bs

theorem expandChars_plain_append {as : List Char} (has : '\\' ∉ as) (bs : List Char) :
    expandChars context (as ++ bs) = as ++ expandChars context bs := by
  obtain ⟨segment, rest, rfl, hsegment, hrest⟩ := exists_segment bs
  have hboth : '\\' ∉ as ++ segment := by simp [has, hsegment]
  rw [← List.append_assoc, expandChars_append hrest, expandChars_append hrest,
    expandChars_of_notMem hboth, expandChars_of_notMem hsegment, List.append_assoc]

/-! ## Reading on behind what was replaced -/

theorem expandChars_keep {c : Char}
    (h : ∀ letter args rest, ¬ Directive (c :: cs) letter args rest) :
    expandChars context (c :: cs) = c :: expandChars context cs := by
  by_cases hc : c = '\\'
  · subst hc
    obtain ⟨segment, rest, rfl, hsegment, hrest⟩ := exists_segment cs
    have hnone : ∀ letter args tail, ¬ Directive ('\\' :: segment) letter args tail :=
      fun letter args tail hdirective => h letter args (tail ++ rest) (hdirective.append rest)
    rw [← List.cons_append, expandChars_append hrest, expandChars_segment hsegment,
      expandSegment_of_none hsegment hnone, expandChars_plain_append hsegment, List.cons_append]
  · have hplain : '\\' ∉ [c] := by simpa using Ne.symm hc
    exact expandChars_plain_append hplain cs

theorem expandChars_directive (h : Directive cs letter args (tail ++ rest)) (htail : '\\' ∉ tail)
    (hlast : ']' ∉ tail) (hrest : ∀ c ∈ rest.head?, c = '\\') :
    expandChars context cs =
      substitute context letter args ++ (tail ++ expandChars context rest) := by
  obtain ⟨rfl, hletter, hargs, hunbroken⟩ := h
  have hsegment : '\\' ∉ letter :: '[' :: (args ++ ']' :: tail) := by
    have hother : '\\' ≠ letter := by rintro rfl; cases hletter
    simp [hother, hunbroken, htail]
  have hdirective : Directive ('\\' :: letter :: '[' :: (args ++ ']' :: tail)) letter args tail :=
    ⟨rfl, hletter, hargs, hunbroken⟩
  have hsplit : '\\' :: letter :: '[' :: (args ++ ']' :: (tail ++ rest)) =
      '\\' :: letter :: '[' :: (args ++ ']' :: tail) ++ rest := by simp
  rw [hsplit, expandChars_append hrest, expandChars_segment hsegment,
    expandSegment_of_directive hdirective hlast, List.append_assoc]

theorem expandChars_replace (h : Longest cs letter args rest) :
    expandChars context cs = substitute context letter args ++ expandChars context rest := by
  obtain ⟨tail, rest, rfl, htail, hrest⟩ := exists_segment rest
  rw [expandChars_directive h.toDirective htail (h.notMem htail) hrest,
    expandChars_plain_append htail]

theorem replaced_expandChars (cs : List Char) : Replaced context cs (expandChars context cs) := by
  induction hn : cs.length using Nat.strongRecOn generalizing cs with
  | ind n ih =>
    by_cases hany : ∃ letter args rest, Directive cs letter args rest
    · obtain ⟨letter, args, rest, hdirective⟩ := hany
      obtain ⟨letter, args, rest, hlongest⟩ := hdirective.exists_longest
      rw [expandChars_replace hlongest]
      have hshorter : rest.length < n := by
        rw [← hn, hlongest.written]
        simp only [List.length_cons, List.length_append]
        omega
      exact .replace hlongest (ih _ hshorter rest rfl)
    · cases cs with
      | nil => exact .done
      | cons c cs =>
        have hnone : ∀ letter args rest, ¬ Directive (c :: cs) letter args rest :=
          fun letter args rest hdirective => hany ⟨letter, args, rest, hdirective⟩
        rw [expandChars_keep hnone]
        exact .keep hnone (ih _ (by simp [← hn]) cs rfl)

theorem Replaced.eq_expandChars {out : List Char} (h : Replaced context cs out) :
    expandChars context cs = out := by
  induction h with
  | done => rfl
  | keep hnone _ ih => rw [expandChars_keep hnone, ih]
  | replace hlongest _ ih => rw [expandChars_replace hlongest, ih]

theorem replaced_iff {out : List Char} :
    Replaced context cs out ↔ expandChars context cs = out :=
  ⟨Replaced.eq_expandChars, fun h => h ▸ replaced_expandChars cs⟩

/-! ## Reading is local -/

/-- Wherever things are looked up, a text is read by replacing the longest directive at every place
where one begins, going on behind it.  So it is read one backslash at a time: without a backslash
nothing is replaced, and of a segment that begins with one, what goes up to the last closing bracket
is replaced if that is a directive that stands for something, and all of it stays otherwise. -/
theorem expand_local (context : MessageContext) :
    (∀ content result : String,
      Replaced context content.toList result.toList ↔ expand context content = result) ∧
    (∀ a b : String,
      expand context (a ++ "\\" ++ b) = expand context a ++ expand context ("\\" ++ b)) ∧
    (∀ a : String, '\\' ∉ a.toList → expand context a = a) ∧
    ∀ segment : String, '\\' ∉ segment.toList →
      (∃ letter args tail, Directive ("\\" ++ segment).toList letter args tail ∧ ']' ∉ tail ∧
        expand context ("\\" ++ segment) =
          match resolve? context letter.toLower args with
          | some text => text ++ String.ofList tail
          | none => "\\" ++ segment) ∨
      (∀ letter args tail, ¬ Directive ("\\" ++ segment).toList letter args tail) ∧
        expand context ("\\" ++ segment) = "\\" ++ segment := by
  refine ⟨fun content result => ?_, fun a b => ?_, fun a ha => ?_, fun segment hsegment => ?_⟩
  · rw [replaced_iff, expand_eq_iff]
  · rw [expand_eq_iff]
    simp [toList_expand, expandChars_append_backslash a.toList b.toList]
  · exact expand_eq_iff.2 (expandChars_of_notMem ha)
  have hchars : expandChars context ("\\" ++ segment).toList =
      expandSegment context segment.toList := by
    simpa using expandChars_segment hsegment
  have htext : ("\\" ++ segment).toList = '\\' :: segment.toList := by simp
  by_cases hany : ∃ letter args tail, Directive ("\\" ++ segment).toList letter args tail
  · obtain ⟨_, _, _, hsome⟩ := hany
    obtain ⟨letter, args, tail, hlongest⟩ := hsome.exists_longest
    have htail : '\\' ∉ tail := fun hmem => hsegment <| by
      rw [List.tail_eq_of_cons_eq (htext.symm.trans hlongest.written)]
      simp [hmem]
    have hlongest' : Longest ("\\" ++ segment).toList letter args (tail ++ []) := by
      rwa [List.append_nil]
    have hlast := hlongest'.notMem htail
    refine .inl ⟨letter, args, tail, hlongest.toDirective, hlast, expand_eq_iff.2 ?_⟩
    rw [hchars, expandSegment_of_directive (htext ▸ hlongest.toDirective) hlast, substitute]
    cases resolve? context letter.toLower args with
    | some text => simp
    | none => simp [hlongest.written]
  · have hnone : ∀ letter args tail, ¬ Directive ("\\" ++ segment).toList letter args tail :=
      fun letter args tail h => hany ⟨letter, args, tail, h⟩
    refine .inr ⟨hnone, expand_eq_iff.2 ?_⟩
    rw [hchars, expandSegment_of_none hsegment (htext ▸ hnone), htext]

/-- What is looked up: variable 3 is 42, and the name of item 7 reads like a directive. -/
def sample : MessageContext where
  price _ := "$1.99"
  value id := if id = 3 then 42 else 0
  itemName? id := if id = 7 then some "\\v[3]" else none
  cell? _ _ _ := none

/-- The name of the item is put in as it is, though it shows a variable where a text holds it. -/
theorem replaced_name_stays :
    Replaced sample "\\i[7:name] is \\V[3]".toList "\\v[3] is 42".toList :=
  ((expand_local sample).1 _ _).2 (by decide +kernel)

/-! ## What follows a directive -/

theorem Directive.longest_of_whole (h : Directive cs letter args []) :
    Longest cs letter args [] := by
  refine ⟨h, fun other more behind hother => ?_⟩
  have hlength := congrArg List.length (h.written.symm.trans hother.written)
  simp only [List.length_cons, List.length_append, List.length_nil] at hlength
  omega

theorem toList_expand_directive (context : MessageContext) {directive : String}
    (h : Directive directive.toList letter args []) :
    (expand context directive).toList = substitute context letter args := by
  rw [toList_expand, expandChars_replace h.longest_of_whole]
  exact List.append_nil _

/-- A longer directive goes on as the shorter one that stands for something only by standing for the
same and what it has more: left as it is, it would leave the shorter one as it is. -/
theorem substitute_longer_iff {more : List Char} {text : String}
    (hshorter : substitute context letter args ≠ '\\' :: letter :: '[' :: (args ++ [']']))
    (htext : text.toList = substitute context letter args ++ (more ++ [']'])) :
    substitute context letter (args ++ ']' :: more) = text.toList ↔
      resolve? context letter.toLower (args ++ ']' :: more) = some text := by
  rw [substitute]
  cases resolve? context letter.toLower (args ++ ']' :: more) with
  | some longer => simp [String.toList_inj]
  | none =>
    have hverbatim : '\\' :: letter :: '[' :: (args ++ ']' :: more ++ [']']) =
        '\\' :: letter :: '[' :: (args ++ [']']) ++ (more ++ [']']) := by simp
    simp only [htext, hverbatim, List.append_cancel_right_eq, reduceCtorEq, iff_false]
    exact Ne.symm hshorter

/-- A directive that is replaced where it stands alone is so before a text too, unless a closing
bracket comes before the next backslash: then the directive goes on up to the last such bracket, and
has to stand for what the shorter one stands for and the text up to there. -/
theorem expand_append_iff (context : MessageContext) {directive : String} (t : String)
    (hdirective : Directive directive.toList letter args [])
    (hexpands : expand context directive ≠ directive) :
    expand context (directive ++ t) = expand context directive ++ expand context t ↔
      ∀ more behind, t.toList.takeWhile (· ≠ '\\') = more ++ ']' :: behind → ']' ∉ behind →
        resolve? context letter.toLower (args ++ ']' :: more) =
          some (expand context directive ++ String.ofList (more ++ [']'])) := by
  have halone := toList_expand_directive context hdirective
  have hreplaced : substitute context letter args ≠ '\\' :: letter :: '[' :: (args ++ [']']) := by
    rw [← halone, ← hdirective.written]
    exact mt String.toList_inj.1 hexpands
  obtain ⟨segment, rest, ht, hsegment, hrest⟩ := exists_segment t.toList
  have hwhole : Directive (directive ++ t).toList letter args (segment ++ rest) := by
    simpa [ht] using hdirective.append t.toList
  have hbehind : (expand context directive ++ expand context t).toList =
      substitute context letter args ++ (segment ++ expandChars context rest) := by
    rw [String.toList_append, halone, toList_expand, ht, expandChars_plain_append hsegment]
  rw [ht, takeWhile_segment hsegment hrest, expand_eq_iff, hbehind]
  by_cases hbracket : ']' ∈ segment
  · obtain ⟨more, behind, rfl, hlast⟩ := exists_last hbracket
    have hmore : '\\' ∉ more := fun hmem => hsegment (by simp [hmem])
    have hplain : '\\' ∉ behind := fun hmem => hsegment (by simp [hmem])
    have hlonger :
        Directive (directive ++ t).toList letter (args ++ ']' :: more) (behind ++ rest) :=
      Directive.extend (by simpa using hwhole) hmore
    have htext : (expand context directive ++ String.ofList (more ++ [']'])).toList =
        substitute context letter args ++ (more ++ [']']) := by simp [halone]
    have hsplit : substitute context letter args ++
        (more ++ ']' :: behind ++ expandChars context rest) =
        (expand context directive ++ String.ofList (more ++ [']'])).toList ++
          (behind ++ expandChars context rest) := by simp [halone]
    rw [expandChars_directive hlonger hplain hlast hrest, hsplit, List.append_cancel_right_eq,
      substitute_longer_iff hreplaced htext]
    constructor
    · intro h more' behind' heq hlast'
      obtain ⟨rfl, rfl⟩ := last_unique heq hlast hlast'
      exact h
    · exact fun h => h more behind rfl hlast
  · have hnone : ∀ more behind, segment ≠ more ++ ']' :: behind := by
      rintro more behind rfl
      exact hbracket (by simp)
    rw [expandChars_directive hwhole hsegment hbracket hrest]
    exact iff_of_true rfl fun more behind h => absurd h (hnone more behind)

theorem directive_variable : Directive "\\v[3]".toList 'v' ['3'] [] :=
  ⟨by decide, by decide, by decide, by decide⟩

/-- Brackets that open and a directive behind a backslash do not matter. -/
theorem expand_variable_of_fifty :
    expand sample ("\\v[3]" ++ " [of 50, not \\v[3]") =
      expand sample "\\v[3]" ++ expand sample " [of 50, not \\v[3]" := by
  refine (expand_append_iff sample _ directive_variable (by decide)).2 fun more behind heq _ => ?_
  have hbracket : ']' ∈ " [of 50, not \\v[3]".toList.takeWhile (· ≠ '\\') := by
    rw [heq]
    simp
  exact absurd hbracket (by decide)

/-- Before a note in brackets the variable is not shown. -/
theorem expand_variable_note :
    ¬ ∀ (context : MessageContext) (directive t : String) (letter : Char) (args : List Char),
      Directive directive.toList letter args [] → ']' ∉ args →
        expand context directive ≠ directive →
          expand context (directive ++ t) = expand context directive ++ expand context t := by
  intro h
  have hnote := h sample "\\v[3]" " [note]" 'v' ['3'] directive_variable (by decide) (by decide)
  exact absurd hnote (by decide)

end Adventure.Message
