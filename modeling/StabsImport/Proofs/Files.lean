import StabsImport.Host
import StabsImport.Proofs.Ledgers

/-!
# Files that come and go

A new file is put where nothing is, so whatever could be read before can be read as before, and the
file itself by the path it was made for. Removing it leaves the files as they were.
-/

namespace StabsImport

namespace Host

variable {h : Host} {location folder : Location} {content : Text.Bytes} {path name : String}

/-! ## Paths -/

/-- A name in a directory. -/
theorem parts_append (path : String) (hname : '/' ∉ name.toList) :
    parts (path ++ "/" ++ name) = parts path ++ [name] := by
  have slash : (path ++ "/" ++ name).toList = path.toList ++ '/' :: name.toList := by
    simp [String.toList_append]
  have single : name.toList.splitOn '/' = [name.toList] :=
    List.splitOnP_eq_singleton fun c hc => by
      rw [beq_eq_false_iff_ne]
      rintro rfl
      exact hname hc
  have split : (path.toList ++ '/' :: name.toList).splitOn '/' =
      path.toList.splitOn '/' ++ name.toList.splitOn '/' :=
    List.splitOnP_append_cons _ _ (beq_self_eq_true '/')
  rw [parts, parts, slash, split, single]
  simp

theorem namedParts_append (path : String) (hname : '/' ∉ name.toList) (hne : name ≠ "") :
    namedParts (path ++ "/" ++ name) = parts path ++ [name] := by
  rw [namedParts, parts_append path hname]
  simp [hne]

theorem walk_append {xs ys : List String}
    (hxs : h.walk location xs = .ok (folder, .directory)) :
    h.walk location (xs ++ ys) = h.walk folder ys := by
  induction xs generalizing location with
  | nil =>
      cases hxs
      rfl
  | cons part rest ih =>
      rw [walk] at hxs
      rw [List.cons_append, walk]
      split
      · next hpart =>
          rw [if_pos hpart] at hxs
          exact ih hxs
      · next hpart =>
          rw [if_neg hpart] at hxs
          split
          · next hup =>
              rw [if_pos hup] at hxs
              exact ih hxs
          · next hup =>
              rw [if_neg hup] at hxs
              dsimp only at hxs ⊢
              split at hxs
              · cases hxs
              · exact ih hxs
              · split at hxs <;> cases hxs

theorem locate_eq_ok_iff {found : Location × Entry} :
    h.locate path = .ok found ↔
      pathFault? path = none ∧ h.walk (start path) (parts path) = .ok found := by
  rw [locate]
  split
  · next hfault => simp [hfault]
  · next hfault => simp [hfault]

theorem read_eq_ok_iff :
    h.read path = .ok content ↔ ∃ location, h.locate path = .ok (location, .file content) := by
  rw [read]
  split
  · next hlocate => simp [hlocate]
  · next hlocate => simp [hlocate]
  · next hlocate => simp [hlocate]

/-! ## New files -/

/-- Nothing is at the location. -/
structure Free (h : Host) (location : Location) : Prop where
  file : h.files.get? location = none
  directory : h.isDirectory location = false

section New

variable (free : h.Free location) (content : Text.Bytes)

include free

theorem Free.keys_put : (h.putFile location content).files.keys = h.files.keys ++ [location] := by
  rw [Ledger.keys, putFile, Ledger.entries_put_of_free free.file]
  simp [Ledger.keys]

theorem Free.isDirectory_put {other : Location} (hdir : h.isDirectory other = true) :
    (h.putFile location content).isDirectory other = true := by
  rw [isDirectory, free.keys_put, List.any_append]
  simp only [isDirectory, Bool.or_eq_true] at hdir ⊢
  exact hdir.imp_right .inl

theorem Free.isDirectory_put_self :
    (h.putFile location content).isDirectory location = false := by
  have directory := free.directory
  rw [isDirectory] at directory
  rw [isDirectory, free.keys_put, List.any_append]
  simpa [putFile] using directory

/-- What was found before is found as it was. -/
theorem Free.entry_put {other : Location} {entry : Entry} (hentry : h.entry? other = some entry) :
    Host.entry? (h.putFile location content) other = some entry := by
  have apart : Key.same other location = false := by
    refine decide_eq_false fun heq => ?_
    have heq : other = location := heq
    rw [heq, Host.entry?, free.file] at hentry
    simp [free.directory] at hentry
  have file : (h.putFile location content).files.get? other = h.files.get? other :=
    Ledger.get?_put_of_not_same _ _ apart
  unfold Host.entry? at hentry ⊢
  rw [file]
  split
  · next found =>
      rw [found] at hentry
      exact hentry
  · next found =>
      rw [found] at hentry
      dsimp only at hentry
      split at hentry
      · next hdir =>
          rw [free.isDirectory_put content hdir]
          exact hentry
      · cases hentry

theorem Free.walk_put {start : Location} {xs : List String} {found : Location × Entry}
    (hwalk : h.walk start xs = .ok found) :
    (h.putFile location content).walk start xs = .ok found := by
  induction xs generalizing start with
  | nil => exact hwalk
  | cons part rest ih =>
      rw [walk] at hwalk ⊢
      split
      · next hpart =>
          rw [if_pos hpart] at hwalk
          exact ih hwalk
      · next hpart =>
          rw [if_neg hpart] at hwalk
          split
          · next hup =>
              rw [if_pos hup] at hwalk
              exact ih hwalk
          · next hup =>
              rw [if_neg hup] at hwalk
              dsimp only at hwalk ⊢
              split at hwalk
              · cases hwalk
              · next hentry =>
                  rw [free.entry_put content hentry]
                  exact ih hwalk
              · next hentry =>
                  rw [free.entry_put content hentry]
                  exact hwalk

theorem Free.read_put {bytes : Text.Bytes} (hread : h.read path = .ok bytes) :
    (h.putFile location content).read path = .ok bytes := by
  obtain ⟨found, hlocate⟩ := read_eq_ok_iff.mp hread
  obtain ⟨hfault, hwalk⟩ := locate_eq_ok_iff.mp hlocate
  exact read_eq_ok_iff.mpr ⟨found, locate_eq_ok_iff.mpr ⟨hfault, free.walk_put content hwalk⟩⟩

end New

/-- A plain name, not that of a directory relative to another. -/
structure IsPlainName (name : String) : Prop where
  slash : '/' ∉ name.toList
  nonempty : name ≠ ""
  here : name ≠ "."
  up : name ≠ ".."

/-- Where a new file in a directory is placed. -/
theorem place_eq_ok_iff (hname : IsPlainName name) :
    h.place (path ++ "/" ++ name) = .ok location ↔
      pathFault? (path ++ "/" ++ name) = none ∧
        (path ++ "/" ++ name).endsWith "/" = false ∧ isNameTooLong name = false ∧
        h.isDirectory location = false ∧
        ∃ folder, location = folder ++ [name] ∧
          h.walk (start (path ++ "/" ++ name)) (parts path) = .ok (folder, .directory) := by
  rw [place, namedParts_append path hname.slash hname.nonempty]
  cases hfault : pathFault? (path ++ "/" ++ name) with
  | some e => simp
  | none =>
      simp only [List.dropLast_concat, List.getLast?_concat, true_and]
      have asks : asksForDirectory (path ++ "/" ++ name) name =
          (path ++ "/" ++ name).endsWith "/" := by
        simp [asksForDirectory, beq_eq_false_iff_ne.mpr hname.here,
          beq_eq_false_iff_ne.mpr hname.up]
      cases hwalk : h.walk (start (path ++ "/" ++ name)) (parts path) with
      | error e => simp
      | ok found =>
          obtain ⟨folder, content | _⟩ := found
          · simp
          · dsimp only
            rw [asks]
            constructor
            · intro hplace
              split at hplace
              · cases hplace
              · next hdir =>
                  split at hplace
                  · cases hplace
                  · next hlong =>
                      cases hplace
                      simp only [Bool.or_eq_true, not_or, Bool.not_eq_true] at hdir hlong
                      exact ⟨hdir.1, hlong, hdir.2, folder, rfl, rfl⟩
            · rintro ⟨hends, hlong, hdir, folder', rfl, hfolder⟩
              cases hfolder
              simp [hends, hlong, hdir]

/-- A new file that is placed in a directory, and has not been there. -/
structure IsNew (h : Host) (path name : String) (location : Location) : Prop where
  plain : IsPlainName name
  placed : h.place (path ++ "/" ++ name) = .ok location
  file : h.files.get? location = none

section Written

variable (new : h.IsNew path name location) (content : Text.Bytes)

include new

theorem IsNew.free : h.Free location :=
  ⟨new.file, ((place_eq_ok_iff new.plain).mp new.placed).2.2.2.1⟩

/-- It has its place also when it is there. -/
theorem IsNew.place_put :
    (h.putFile location content).place (path ++ "/" ++ name) = .ok location := by
  obtain ⟨hfault, hends, hlong, hdir, folder, hlocation, hwalk⟩ :=
    (place_eq_ok_iff new.plain).mp new.placed
  exact (place_eq_ok_iff new.plain).mpr ⟨hfault, hends, hlong,
    new.free.isDirectory_put_self content, folder, hlocation, new.free.walk_put content hwalk⟩

/-- It is found by its path. -/
theorem IsNew.read_put :
    (h.putFile location content).read (path ++ "/" ++ name) = .ok content := by
  obtain ⟨hfault, -, -, -, folder, rfl, hwalk⟩ := (place_eq_ok_iff new.plain).mp new.placed
  have found : Host.entry? (h.putFile (folder ++ [name]) content) (folder ++ [name]) =
      some (.file content) := by
    rw [Host.entry?, putFile, Ledger.get?_put_self]
  refine read_eq_ok_iff.mpr ⟨folder ++ [name], locate_eq_ok_iff.mpr ⟨hfault, ?_⟩⟩
  rw [parts_append path new.plain.slash, walk_append (new.free.walk_put content hwalk), walk]
  simp [new.plain.nonempty, new.plain.here, new.plain.up, found]

end Written

/-! ## Fresh names -/

theorem length_le_foldl_max (lengths : List Nat) (start : Nat) :
    start ≤ lengths.foldl max start ∧ ∀ n ∈ lengths, n ≤ lengths.foldl max start := by
  induction lengths generalizing start with
  | nil => exact ⟨Nat.le_refl _, nofun⟩
  | cons n rest ih =>
      obtain ⟨hstart, hrest⟩ := ih (max start n)
      refine ⟨Nat.le_trans (Nat.le_max_left _ _) hstart, fun m hm => ?_⟩
      rcases List.mem_cons.mp hm with rfl | hm
      · exact Nat.le_trans (Nat.le_max_right _ _) hstart
      · exact hrest m hm

theorem length_freshName (h : Host) (first last : String) :
    (h.freshName first last).length = first.length + h.freshLength + last.length := by
  simp [freshName]

/-- No file has a fresh name. -/
theorem get?_freshName (h : Host) (folder : Location) (first last : String) :
    h.files.get? (folder ++ [h.freshName first last]) = none := by
  refine Ledger.get?_eq_none_iff.mpr fun e he => decide_eq_false fun heq => ?_
  have heq : e.1 = folder ++ [h.freshName first last] := heq
  have hmem : (String.join e.1).length ∈ h.files.keys.map fun file => (String.join file).length :=
    List.mem_map_of_mem (f := fun file => (String.join file).length) (List.mem_map_of_mem he)
  have hlt : (String.join e.1).length < h.freshLength :=
    Nat.lt_succ_of_le ((length_le_foldl_max _ 0).2 _ hmem)
  have hlength : (String.join e.1).length =
      (String.join folder).length + (h.freshName first last).length := by
    rw [heq]
    simp [String.join]
  rw [length_freshName] at hlength
  omega

theorem isPlainName_freshName (h : Host) {first last : String} (hfirst : '/' ∉ first.toList)
    (hlast : '/' ∉ last.toList) (long : 2 < first.length) :
    IsPlainName (h.freshName first last) := by
  have length := h.length_freshName first last
  refine ⟨?_, ?_, ?_, ?_⟩
  · simp [freshName, hfirst, hlast]
  all_goals
    intro heq
    rw [heq] at length
    have short : ("..".length : Nat) = 2 := rfl
    have shorter : (".".length : Nat) = 1 := rfl
    have shortest : ("".length : Nat) = 0 := rfl
    omega

theorem isNew_freshName {first last : String} (hfirst : '/' ∉ first.toList)
    (hlast : '/' ∉ last.toList) (long : 2 < first.length)
    (placed : h.place (path ++ "/" ++ h.freshName first last) = .ok location) :
    h.IsNew path (h.freshName first last) location := by
  have plain := h.isPlainName_freshName hfirst hlast long
  obtain ⟨-, -, -, -, folder, rfl, -⟩ := (place_eq_ok_iff plain).mp placed
  exact ⟨plain, placed, h.get?_freshName folder first last⟩

/-! ## Removal -/

theorem put_put (h : Host) (location : Location) (first content : Text.Bytes) :
    (h.putFile location first).putFile location content = h.putFile location content := by
  simp only [putFile, Ledger.put_put]

/-- A new file that is removed leaves the files as they were. -/
theorem Free.remove_put (free : h.Free location) (content : Text.Bytes) :
    (h.putFile location content).removeFile location = h := by
  simp only [putFile, removeFile, Ledger.remove_put, Ledger.remove_of_free free.file]

end Host

end StabsImport
