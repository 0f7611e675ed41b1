import Adventure.Files.Store
import Adventure.Proofs.Text.Numerals
import Mathlib.Data.List.TakeWhile

/-!
# What is read after a write

A file that was written is read with its new bytes.  A write that failed leaves every file as it
was: all that it may have done is to make folders, `FileStore.Grown`, and nothing can be read
through them that was not there before.
-/

namespace Adventure.Files

/-! ## Paths -/

section Paths

variable {path name : String} {above : List String}

theorem not_mem_of_mem_parts {part : String} (h : part ∈ parts path) : '/' ∉ part.toList := by
  rw [parts, splitFields_eq_splitOn] at h
  obtain ⟨field, hfield, rfl⟩ := List.mem_map.1 h
  rw [String.toList_ofList]
  exact not_mem_of_mem_splitOn hfield

/-- Parts that are joined by slashes are the parts of the path. -/
theorem parts_intercalate {names : List String} (some : names ≠ [])
    (clear : ∀ name ∈ names, '/' ∉ name.toList) : parts (String.intercalate "/" names) = names := by
  have hsplit : ((['/'] : List Char).intercalate (names.map String.toList)).splitOn '/' =
      names.map String.toList :=
    List.splitOn_intercalate '/' (by simpa using clear) (by simpa using some)
  rw [parts, splitFields_eq_splitOn, String.toList_intercalate]
  show ((['/'] : List Char).intercalate _ |>.splitOn '/').map _ = _
  rw [hsplit, List.map_map]
  simp

theorem fromRoot_iff :
    fromRoot path = true ↔ (parts path).head? = some "" ∧ 1 < (parts path).length := by
  rw [fromRoot, String.startsWith_string_iff, parts, splitFields_eq_splitOn]
  cases path.toList with
  | nil => simp
  | cons c rest =>
    rw [List.splitOn_cons_eq_if_modifyHead]
    cases hrest : rest.splitOn '/' with
    | nil => exact absurd hrest (List.splitOn_ne_nil _ _)
    | cons field fields =>
      by_cases hc : c = '/'
      · simp [hc]
      · simp [hc, Ne.symm hc]

theorem isBlankPart_iff {part : String} : isBlankPart part = true ↔ part = "" ∨ part = "." := by
  simp [isBlankPart]

theorem place_of_blank {here ps : List String} (h : ∀ part ∈ ps, isBlankPart part = true) :
    place here ps = here := by
  have hfold : ps.foldl follow here.reverse = here.reverse := by
    induction ps with
    | nil => rfl
    | cons part rest ih =>
      obtain ⟨hpart, hrest⟩ := List.forall_mem_cons.1 h
      rw [List.foldl_cons, follow, if_pos hpart, ih hrest]
  rw [place, hfold, List.reverse_reverse]

/-- The path of a file ends with a name. -/
theorem exists_name (file : namesFolder path = false) :
    ∃ above name, parts path = above ++ [name] ∧ isBlankPart name = false := by
  rw [namesFolder] at file
  split at file
  · cases file
  · next name hname =>
    obtain ⟨above, habove⟩ := List.getLast?_eq_some_iff.1 hname
    rw [Bool.or_eq_false_iff] at file
    exact ⟨above, name, habove, file.1⟩

theorem trimmed_eq (h : parts path = above ++ [name]) (hname : isBlankPart name = false) :
    trimmed path = name :: above.reverse := by
  rw [trimmed, h, List.reverse_append]
  exact List.dropWhile_cons_of_neg (by rw [hname]; exact Bool.false_ne_true)

section Folder

variable (h : parts path = above ++ [name]) (hname : isBlankPart name = false)

include h

theorem fromRoot_iff_head? : fromRoot path = true ↔ above.head? = some "" := by
  rw [fromRoot_iff, h]
  cases above with
  | nil => simp
  | cons first rest => simp

include hname

/-- Where nothing but slashes and dots is above a file, the path to its folder has no more
than that. -/
theorem folderOf_of_blank (blank : ∀ part ∈ above, isBlankPart part = true) :
    (∀ part ∈ parts (folderOf path), isBlankPart part = true) ∧
      (fromRoot (folderOf path) = fromRoot path ∨ fromRoot (folderOf path) = true) := by
  have hfolders : above.reverse.dropWhile isBlankPart = [] :=
    List.dropWhile_eq_nil_iff.2 fun part hpart => blank part (List.mem_reverse.1 hpart)
  have hfolder : folderOf path = _ := rfl
  conv at hfolder =>
    rhs
    rw [folderOf, trimmed_eq h hname, List.drop_succ_cons, List.drop_zero, hfolders,
      List.getLast?_reverse]
  have hbelow : above.head? ≠ some "" → fromRoot path = false := fun hne =>
    Bool.eq_false_iff.2 fun hroot => hne ((fromRoot_iff_head? h).1 hroot)
  cases above with
  | nil =>
    have hempty : folderOf path = "" := hfolder
    rw [hempty, hbelow (by simp)]
    exact ⟨by decide, .inl (by simp [fromRoot])⟩
  | cons first rest =>
    rcases isBlankPart_iff.1 (blank first List.mem_cons_self) with rfl | rfl
    · have hslash : folderOf path = "/" := hfolder
      rw [hslash]
      exact ⟨by decide, .inr (by simp [fromRoot])⟩
    · have hdot : folderOf path = "." := hfolder
      rw [hdot, hbelow (by simp)]
      exact ⟨by decide, .inl (by simp [fromRoot])⟩

/-- Otherwise it goes along what is above the file, up to the last name there. -/
theorem folderOf_of_names {last : String} {rest : List String}
    (names : above.reverse.dropWhile isBlankPart = last :: rest) :
    fromRoot (folderOf path) = fromRoot path ∧
      ∃ n ≤ above.length, parts (folderOf path) = above.take n := by
  have hfolder : folderOf path = String.intercalate "/" (last :: rest).reverse := by
    rw [folderOf, trimmed_eq h hname, List.drop_succ_cons, List.drop_zero, names]
  have hfront : (last :: rest).reverse <+: above := by
    rw [← List.reverse_reverse above]
    exact List.reverse_prefix.2 (names ▸ List.dropWhile_suffix _)
  have hclear : ∀ part ∈ (last :: rest).reverse, '/' ∉ part.toList := fun part hpart =>
    not_mem_of_mem_parts (h ▸ List.mem_append_left _ (hfront.subset hpart))
  have hparts : parts (folderOf path) = (last :: rest).reverse := by
    rw [hfolder]
    exact parts_intercalate (by simp) hclear
  refine ⟨?_, _, hfront.length_le, hparts.trans (List.prefix_iff_eq_take.1 hfront)⟩
  have hhead : (last :: rest).reverse.head? = above.head? := by
    obtain ⟨behind, rfl⟩ := hfront
    rw [List.head?_append_of_ne_nil _ (by simp)]
  rw [Bool.eq_iff_iff, fromRoot_iff, fromRoot_iff_head? h, hparts, hhead, and_iff_left_iff_imp]
  intro hempty
  cases rest with
  | nil =>
    -- a folder that is one part is no empty one
    have hlast := List.head?_dropWhile_not isBlankPart above.reverse
    rw [← hhead] at hempty
    obtain rfl := Option.some.inj hempty
    rw [names] at hlast
    cases hlast
  | cons part rest => simp

/-- The path to the folder of a file goes along the parts of the path of the file, or along none,
but then it may begin at the root. -/
theorem folderOf_cases :
    (fromRoot (folderOf path) = fromRoot path ∧
        ∃ n ≤ above.length, parts (folderOf path) = above.take n) ∨
      ((∀ part ∈ parts (folderOf path), isBlankPart part = true) ∧
        (fromRoot (folderOf path) = fromRoot path ∨ fromRoot (folderOf path) = true)) := by
  cases hfolders : above.reverse.dropWhile isBlankPart with
  | nil =>
    refine .inr (folderOf_of_blank h hname fun part hpart => ?_)
    exact List.dropWhile_eq_nil_iff.1 hfolders part (List.mem_reverse.2 hpart)
  | cons last rest => exact .inl (folderOf_of_names h hname hfolders)

end Folder

end Paths

namespace FileStore

variable {s s' : FileStore} {path : String} {bytes data : List UInt8}

/-! ## Nodes -/

theorem isFolder_iff {names : List String} :
    s.isFolder names = true ↔ s.node? names = some .folder := by
  rw [isFolder]
  split
  · next h => exact ⟨fun _ => h, fun _ => rfl⟩
  · next h => exact ⟨fun h' => (by cases h'), fun h' => absurd h' h⟩

theorem ne_nil_of_not_isFolder {names : List String} (h : s.isFolder names = false) :
    names ≠ [] := by
  rintro rfl
  cases h

theorem node?_of_ne_nil {names : List String} (h : names ≠ []) :
    s.node? names = s.nodes.find? names := by
  rw [node?, if_neg (by simpa using h)]

theorem node?_put_self {names : List String} (h : names ≠ []) (node : Node) :
    (s.put names node).node? names = some node := by
  rw [node?_of_ne_nil h]
  exact SortedMap.find?_insert_self _ _ _

theorem node?_put_of_ne {names names' : List String} (h : names' ≠ names) (node : Node) :
    (s.put names node).node? names' = s.node? names' := by
  by_cases hnil : names' = []
  · subst hnil
    rfl
  · rw [node?_of_ne_nil hnil, node?_of_ne_nil hnil]
    exact SortedMap.find?_insert_of_ne _ h _

/-! ## Folders that are made -/

/-- A store with some folders more, where nothing was before. -/
structure Grown (s s' : FileStore) : Prop where
  here : s'.here = s.here
  readOnly : s'.readOnly = s.readOnly
  stays : ∀ {names : List String} {node : Node}, s.node? names = some node →
    s'.node? names = some node
  new : ∀ {names : List String}, s.node? names = none → s'.node? names = none ∨
    (s'.node? names = some .folder ∧ ¬ names.getLast?.any isTooLong)

theorem Grown.refl (s : FileStore) : s.Grown s := ⟨rfl, rfl, fun h => h, .inl⟩

theorem Grown.trans {s'' : FileStore} (first : s.Grown s') (more : s'.Grown s'') : s.Grown s'' where
  here := more.here.trans first.here
  readOnly := more.readOnly.trans first.readOnly
  stays h := more.stays (first.stays h)
  new h := by
    rcases first.new h with h | ⟨h, hshort⟩
    · exact more.new h
    · exact .inr ⟨more.stays h, hshort⟩

theorem grown_put {names : List String} (absent : s.node? names = none)
    (short : ¬ names.getLast?.any isTooLong) : s.Grown (s.put names .folder) where
  here := rfl
  readOnly := rfl
  stays {names' node} h := by
    rw [node?_put_of_ne _]
    · exact h
    · rintro rfl
      rw [absent] at h
      cases h
  new {names'} h := by
    by_cases heq : names' = names
    · subst heq
      have hnil : names' ≠ [] := by
        rintro rfl
        cases absent
      exact .inr ⟨node?_put_self hnil _, short⟩
    · exact .inl ((node?_put_of_ne heq _).trans h)

theorem grown_makeFolders {folders : List (List String)} {done : Bool}
    (h : s.makeFolders folders = (done, s')) : s.Grown s' := by
  induction folders generalizing s with
  | nil =>
    cases h
    exact .refl _
  | cons names rest ih =>
    rw [makeFolders] at h
    split at h
    · exact ih h
    · cases h
      exact .refl _
    · next habsent =>
      split at h
      · cases h
        exact .refl _
      · next hmade =>
        rw [Bool.or_eq_true, not_or] at hmade
        exact (grown_put habsent hmade.2).trans (ih h)

theorem grown_makeFolder {done : Bool} (h : s.makeFolder path = (done, s')) : s.Grown s' := by
  rw [makeFolder] at h
  split at h
  · cases h
    exact .refl _
  · exact grown_makeFolders h

/-! ## The way to a file -/

theorem mem_foldersTo_iff {names : List String} :
    names ∈ s.foldersTo path ↔
      ∃ n < (parts path).length, place (s.start path) ((parts path).take n) = names := by
  simp [foldersTo]

/-- The folder of a file, and the folders on the way to it, are on the way to the file, or they are
the root. -/
theorem mem_foldersTo_of_folderOf {names : List String} (file : namesFolder path = false)
    (h : names ∈ s.foldersTo (folderOf path) ++ [s.placeOf (folderOf path)]) :
    names = [] ∨ names ∈ s.foldersTo path := by
  obtain ⟨above, name, hparts, hname⟩ := exists_name file
  obtain ⟨n, rfl⟩ :
      ∃ n, place (s.start (folderOf path)) ((parts (folderOf path)).take n) = names := by
    rcases List.mem_append.1 h with h | h
    · obtain ⟨n, -, heq⟩ := mem_foldersTo_iff.1 h
      exact ⟨n, heq⟩
    · refine ⟨(parts (folderOf path)).length, ?_⟩
      rw [List.take_length]
      exact (List.mem_singleton.1 h).symm
  have hlength : (parts path).length = above.length + 1 := by
    rw [hparts, List.length_append, List.length_singleton]
  rcases folderOf_cases hparts hname with ⟨hroot, m, hm, htake⟩ | ⟨hblank, hroot⟩
  · have habove : above.take m = (parts path).take m := by
      rw [hparts, List.take_append_of_le_length hm]
    refine .inr (mem_foldersTo_iff.2 ⟨min n m, by omega, ?_⟩)
    rw [htake, habove, List.take_take, start, start, hroot]
  · rw [place_of_blank fun part hpart => hblank part (List.mem_of_mem_take hpart), start]
    rcases hroot with hroot | hroot
    · refine .inr (mem_foldersTo_iff.2 ⟨0, by omega, ?_⟩)
      rw [List.take_zero, place_of_blank (by simp), hroot, start]
    · exact .inl (if_pos hroot)

/-! ## Making folders -/

theorem eq_of_makeFolders_readOnly {folders : List (List String)} {done : Bool}
    (readOnly : s.readOnly = true) (h : s.makeFolders folders = (done, s')) : s' = s := by
  induction folders with
  | nil => exact (Prod.mk.inj h).2.symm
  | cons names rest ih =>
    rw [makeFolders] at h
    split at h
    · exact ih h
    · exact (Prod.mk.inj h).2.symm
    · rw [if_pos (by rw [readOnly]; rfl)] at h
      exact (Prod.mk.inj h).2.symm

/-- Where folders could not be made, one of them is not there. -/
theorem exists_of_makeFolders_failed {folders : List (List String)}
    (h : s.makeFolders folders = (false, s')) : ∃ names ∈ folders, s'.isFolder names = false := by
  have hother :
      ∀ {t : FileStore} {names}, t.node? names ≠ some .folder → t.isFolder names = false :=
    fun hne => Bool.eq_false_iff.2 fun hfolder => hne (isFolder_iff.1 hfolder)
  induction folders generalizing s with
  | nil => cases h
  | cons names rest ih =>
    rw [makeFolders] at h
    split at h
    · obtain ⟨names', hmem, hfolder⟩ := ih h
      exact ⟨names', List.mem_cons_of_mem _ hmem, hfolder⟩
    · next hfile =>
      obtain rfl := (Prod.mk.inj h).2
      exact ⟨names, List.mem_cons_self, hother (by simp [hfile])⟩
    · next habsent =>
      split at h
      · obtain rfl := (Prod.mk.inj h).2
        exact ⟨names, List.mem_cons_self, hother (by simp [habsent])⟩
      · obtain ⟨names', hmem, hfolder⟩ := ih h
        exact ⟨names', List.mem_cons_of_mem _ hmem, hfolder⟩

/-! ## Reading -/

/-- A file is read where a path leads through folders to it. -/
theorem missing_ne (names : List String) : missing names ≠ .ok (some bytes) := by
  rw [missing]
  split <;> exact fun h => by cases h

theorem read_of_node (possible : isImpossible path = false) (file : namesFolder path = false)
    (folders : ∀ names ∈ s.foldersTo path, s.isFolder names = true)
    (node : s.node? (s.placeOf path) = some (.file bytes)) : s.read path = .ok (some bytes) := by
  have hsome : path ≠ "" := by
    rintro rfl
    exact absurd file (by decide)
  have hfind : (s.foldersTo path).find? (fun names => !s.isFolder names) = none := by
    simpa using folders
  rw [read, if_neg hsome, if_neg (by simp [possible]), hfind]
  simp only [node]
  rw [if_neg (by simp [file])]

theorem read_eq_some_iff : s.read path = .ok (some bytes) ↔
    isImpossible path = false ∧ namesFolder path = false ∧
      (∀ names ∈ s.foldersTo path, s.isFolder names = true) ∧
      s.node? (s.placeOf path) = some (.file bytes) := by
  refine ⟨fun h => ?_,
    fun ⟨possible, file, folders, node⟩ => read_of_node possible file folders node⟩
  rw [read] at h
  split at h
  · cases h
  · split at h
    · cases h
    · next hpossible =>
      split at h
      · split at h
        · cases h
        · exact absurd h (missing_ne _)
      · next hfind =>
        split at h
        · next data hnode =>
          split at h
          · cases h
          · next hfile =>
            obtain rfl := Option.some.inj (Except.ok.inj h)
            exact ⟨Bool.eq_false_iff.2 hpossible, Bool.eq_false_iff.2 hfile, by simpa using hfind,
              hnode⟩
        · cases h
        · exact absurd h (missing_ne _)

theorem Grown.read_some (h : s.Grown s') (hread : s.read path = .ok (some bytes)) :
    s'.read path = .ok (some bytes) := by
  obtain ⟨hpossible, hfile, hfolders, hnode⟩ := read_eq_some_iff.1 hread
  have hstart : s'.start path = s.start path := by rw [start, start, h.here]
  refine read_eq_some_iff.2 ⟨hpossible, hfile, fun names hnames => ?_, ?_⟩
  · rw [foldersTo, hstart] at hnames
    exact isFolder_iff.2 (h.stays (isFolder_iff.1 (hfolders names hnames)))
  · rw [placeOf, hstart]
    exact h.stays hnode

/-! ## Writing -/

/-- A file that was written is read. -/
theorem read_of_write (h : s.write path bytes = some s') : s'.read path = .ok (some bytes) := by
  rw [write] at h
  split at h
  · cases h
  · next hpossible =>
    simp only [Bool.or_eq_true, not_or, Bool.not_eq_true] at hpossible
    dsimp only at h
    split at h
    · cases h
    · next hplace =>
      simp only [Bool.or_eq_true, not_or, Bool.not_eq_true] at hplace
      split at h
      · next hfolders =>
        obtain rfl := Option.some.inj h
        rw [List.all_eq_true] at hfolders
        refine read_eq_some_iff.2 ⟨hpossible.1.2, hpossible.2, fun names hnames => ?_, ?_⟩
        · have hfolder := hfolders names hnames
          have hne : names ≠ s.placeOf path := by
            rintro rfl
            rw [hplace.2] at hfolder
            cases hfolder
          rw [isFolder_iff, node?_put_of_ne hne]
          exact isFolder_iff.1 hfolder
        · exact node?_put_self (ne_nil_of_not_isFolder hplace.2) _
      · cases h

theorem read_of_save (h : s.save path bytes = (true, s')) : s'.read path = .ok (some bytes) := by
  rw [save] at h
  split at h
  · cases h
  · split at h
    · next hwrite =>
      obtain rfl := (Prod.mk.inj h).2
      exact read_of_write hwrite
    · cases h

/-! ## Failing -/

/-- Whether no file has a name that none can have. -/
def Sound (s : FileStore) : Prop :=
  ∀ names bytes, s.node? names = some (.file bytes) → ¬ names.getLast?.any isTooLong

theorem Grown.file (h : s.Grown s') {names : List String}
    (hnode : s'.node? names = some (.file bytes)) : s.node? names = some (.file bytes) := by
  cases hbefore : s.node? names with
  | some node =>
    rw [h.stays hbefore] at hnode
    exact hnode
  | none =>
    rcases h.new hbefore with habsent | ⟨hfolder, -⟩
    · rw [habsent] at hnode
      cases hnode
    · rw [hfolder] at hnode
      cases hnode

theorem Grown.sound_after (h : s.Grown s') (sound : s.Sound) : s'.Sound :=
  fun names bytes hnode => sound names bytes (h.file hnode)

theorem eq_of_makeFolder_readOnly {done : Bool} (readOnly : s.readOnly = true)
    (h : s.makeFolder path = (done, s')) : s' = s := by
  rw [makeFolder] at h
  split at h
  · exact (Prod.mk.inj h).2.symm
  · exact eq_of_makeFolders_readOnly readOnly h

/-- A file is not found on a way that could not be made. -/
theorem eq_of_makeFolder_failed (h : s.makeFolder (folderOf path) = (false, s'))
    (hread : s'.read path = .ok (some bytes)) : s' = s := by
  rw [makeFolder] at h
  split at h
  · exact (Prod.mk.inj h).2.symm
  · obtain ⟨-, hfile, hfolders, -⟩ := read_eq_some_iff.1 hread
    have hstart : s'.start path = s.start path := by
      rw [start, start, (grown_makeFolders h).here]
    obtain ⟨names, hmem, hfolder⟩ := exists_of_makeFolders_failed h
    rcases mem_foldersTo_of_folderOf hfile hmem with rfl | hmem
    · cases hfolder
    · rw [foldersTo, ← hstart, ← foldersTo] at hmem
      rw [hfolders names hmem] at hfolder
      cases hfolder

/-- A write fails where a file could be read only if nothing can be written. -/
theorem readOnly_of_write_failed (sound : s.Sound) (h : s.write path data = none)
    (hread : s.read path = .ok (some bytes)) : s.readOnly = true := by
  obtain ⟨hpossible, hfile, hfolders, hnode⟩ := read_eq_some_iff.1 hread
  have hshort := sound _ _ hnode
  have hother : s.isFolder (s.placeOf path) = false :=
    Bool.eq_false_iff.2 fun hfolder => by
      rw [isFolder_iff.1 hfolder] at hnode
      cases hnode
  rw [write, hpossible, hfile] at h
  cases hreadOnly : s.readOnly with
  | true => rfl
  | false =>
    have hall : (s.foldersTo path).all s.isFolder = true := List.all_eq_true.2 hfolders
    rw [hreadOnly] at h
    simp [hshort, hother, hall] at h

/-- A write that fails leaves a file as it was, and none appears. -/
theorem read_of_failed (sound : s.Sound) (h : s.save path data = (false, s')) :
    s'.read path = .ok (some bytes) ↔ s.read path = .ok (some bytes) := by
  rw [save] at h
  split at h
  · next hmade =>
    obtain rfl := (Prod.mk.inj h).2
    refine ⟨fun hread => ?_, (grown_makeFolder hmade).read_some⟩
    rwa [eq_of_makeFolder_failed hmade hread] at hread
  · next t hmade =>
    have hgrown := grown_makeFolder hmade
    split at h
    · cases h
    · next hwrite =>
      obtain rfl := (Prod.mk.inj h).2
      refine ⟨fun hread => ?_, hgrown.read_some⟩
      have hreadOnly := readOnly_of_write_failed (hgrown.sound_after sound) hwrite hread
      rwa [eq_of_makeFolder_readOnly (hgrown.readOnly ▸ hreadOnly) hmade] at hread

theorem Sound.write (sound : s.Sound) (h : s.write path data = some s') : s'.Sound := by
  rw [FileStore.write] at h
  split at h
  · cases h
  · dsimp only at h
    split at h
    · cases h
    · next hplace =>
      rw [Bool.or_eq_true, not_or] at hplace
      split at h
      · obtain rfl := Option.some.inj h
        intro names bytes hnode
        by_cases heq : names = s.placeOf path
        · rw [heq]
          exact hplace.1
        · rw [node?_put_of_ne heq] at hnode
          exact sound names bytes hnode
      · cases h

theorem Sound.save (sound : s.Sound) (path : String) (data : List UInt8) :
    (s.save path data).2.Sound := by
  rw [FileStore.save]
  split
  · next hmade => exact (grown_makeFolder hmade).sound_after sound
  · next t hmade =>
    have hsound := (grown_makeFolder hmade).sound_after sound
    split
    · next hwrite => exact hsound.write hwrite
    · exact hsound

end FileStore

end Adventure.Files
