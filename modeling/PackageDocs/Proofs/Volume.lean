import PackageDocs.Proofs.Except
import PackageDocs.Volume

/-!
# Written files

What is written at a path is read there afterwards: a new file changes no directory, so
the path leads to where it led before, and there the file stands. Where nothing can be
written, all files are as they were.

## Main definitions

- `Volume.Place.route?`: where a file stands or may stand

## Main results

- `Volume.walk_putFile`: the names lead to the new file
- `Volume.read_of_write`: what was written is read
- `Volume.files_left_of_write`: an attempt that fails changes no file
-/

namespace PackageDocs

namespace Volume

/-- Where a file stands, or may stand. -/
def Place.route? : Place → Option Route
  | .directory => none
  | .file route _ | .free route => some route

theorem lookup_putFile (route : Route) (contents : ByteArray)
    (files : List (Route × ByteArray)) :
    (putFile route contents files).lookup route = some contents := by
  induction files with
  | nil => exact List.lookup_cons_self
  | cons file rest ih =>
    obtain ⟨there, old⟩ := file
    rw [putFile]
    split
    · exact List.lookup_cons_self
    · next hne =>
      have hbeq : (route == there) = false := beq_false_of_ne (Ne.symm hne)
      rw [List.lookup_cons, hbeq]
      exact ih

/-- The names that led to the route lead to the file that is put there. -/
theorem walk_putFile {v : Volume} {names : List Text} {here route : Route} {place : Place}
    (hwalk : v.walk here names = .ok place) (hroute : place.route? = some route)
    (contents : ByteArray) :
    ({ v with files := putFile route contents v.files } : Volume).walk here names =
      .ok (.file route contents) := by
  induction names generalizing here with
  | nil =>
    obtain rfl : Place.directory = place := Except.ok.inj hwalk
    exact absurd hroute (by simp [Place.route?])
  | cons name rest ih =>
    rw [walk] at hwalk ⊢
    -- the new file leaves the directories as they are
    have hsame : ({ v with files := putFile route contents v.files } : Volume).hasDirectory
        (here ++ [name]) = v.hasDirectory (here ++ [name]) := rfl
    have hname : ({ v with files := putFile route contents v.files } : Volume).isLongName name =
        v.isLongName name := rfl
    dsimp only at hwalk ⊢
    rw [hsame, hname]
    by_cases hup : name = ['.', '.']
    · rw [if_pos hup] at hwalk ⊢
      exact ih hwalk
    rw [if_neg hup] at hwalk ⊢
    by_cases hlong : v.isLongName name = true
    · rw [if_pos hlong] at hwalk
      exact absurd hwalk (by simp)
    rw [if_neg hlong] at hwalk ⊢
    by_cases hdirectory : v.hasDirectory (here ++ [name]) = true
    · rw [if_pos hdirectory] at hwalk ⊢
      exact ih hwalk
    rw [if_neg hdirectory] at hwalk ⊢
    -- the route ends here: no names are left
    cases hrest : rest.isEmpty with
    | false =>
      rw [hrest] at hwalk
      cases hfile : v.files.lookup (here ++ [name]) <;> simp [hfile] at hwalk
    | true =>
      obtain rfl : here ++ [name] = route := by
        cases hfile : v.files.lookup (here ++ [name]) <;>
        · rw [hrest, hfile] at hwalk
          obtain rfl := Except.ok.inj hwalk
          exact Option.some.inj hroute
      rw [lookup_putFile]

/-- What a path led to that may hold a file, it leads to once the file is put there. -/
theorem place_putFile {v : Volume} {names : List Text} {route : Route} {place : Place}
    (hplace : v.place names = .ok place) (hroute : place.route? = some route)
    (contents : ByteArray) :
    ({ v with files := putFile route contents v.files } : Volume).place names =
      .ok (.file route contents) := by
  have hsame : ({ v with files := putFile route contents v.files } : Volume).isLongPath names =
      v.isLongPath names := rfl
  rw [Volume.place] at hplace ⊢
  rw [hsame]
  by_cases hnull : names.any fun name => name.contains '\x00'
  · rw [if_pos hnull] at hplace
    exact absurd hplace (by simp)
  rw [if_neg hnull] at hplace ⊢
  by_cases hlong : v.isLongPath names = true
  · rw [if_pos hlong] at hplace
    exact absurd hplace (by simp)
  rw [if_neg hlong] at hplace ⊢
  exact walk_putFile hplace hroute contents

/-- A file is written where its path leads to, once its directory is there. -/
theorem write_eq_ok_iff {v saved : Volume} {path : Text} {contents : ByteArray} :
    v.write path contents = .ok saved ↔
      ∃ made place route, v.ensureDirectory (components path).reverse.tail = .ok made ∧
        made.place (components path) = .ok place ∧ place.route? = some route ∧
        { made with files := putFile route contents made.files } = saved := by
  rw [write, bind_eq_ok_iff]
  constructor
  · rintro ⟨made, hmade, h⟩
    cases hplace : made.place (components path) with
    | error fault => simp [hplace] at h
    | ok place =>
      rw [hplace] at h
      cases place with
      | directory => exact absurd h (by simp)
      | file route old => exact ⟨made, _, route, hmade, hplace, rfl, Except.ok.inj h⟩
      | free route => exact ⟨made, _, route, hmade, hplace, rfl, Except.ok.inj h⟩
  · rintro ⟨made, place, route, hmade, hplace, hroute, rfl⟩
    refine ⟨made, hmade, ?_⟩
    rw [hplace]
    cases place with
    | directory => exact absurd hroute (by simp [Place.route?])
    | file there old =>
      obtain rfl := Option.some.inj hroute
      rfl
    | free there =>
      obtain rfl := Option.some.inj hroute
      rfl

/-- **Written files are read.** What was written at a path is read at it. -/
theorem read_of_write {v saved : Volume} {path : Text} {contents : ByteArray}
    (h : v.write path contents = .ok saved) : saved.read path = .ok contents := by
  obtain ⟨made, place, route, -, hplace, hroute, rfl⟩ := write_eq_ok_iff.1 h
  rw [Volume.read, place_putFile hplace hroute]
  rfl

-- ═════════════════════════════════════════════════════════════════════════════
-- Attempts that fail
-- ═════════════════════════════════════════════════════════════════════════════

theorem files_of_makeDirectory {v made : Volume} {names : List Text}
    (h : v.makeDirectory names = .ok made) : made.files = v.files := by
  obtain ⟨place, -, h⟩ := bind_eq_ok_iff.1 h
  cases place with
  | free route =>
    obtain rfl := Except.ok.inj h
    rfl
  | _ => exact absurd h (by simp)

theorem after_orDirectory (v : Volume) (names : List Text) (fault : FileFault) :
    after (v.orDirectory names fault) = v := by
  rw [orDirectory]
  split <;> rfl

/-- Making directories changes no file, also where it fails half way. -/
theorem files_after_ensureDirectory (v : Volume) (names : List Text) :
    (after (v.ensureDirectory names)).files = v.files := by
  induction names with
  | nil => rfl
  | cons last before ih =>
    rw [ensureDirectory]
    split
    · next made hmade => exact files_of_makeDirectory hmade
    · cases hbefore : v.ensureDirectory before with
      | error fault =>
        rw [hbefore] at ih
        exact ih
      | ok made =>
        rw [hbefore] at ih
        rw [ok_bind]
        split
        · next made' hmade => exact (files_of_makeDirectory hmade).trans ih
        · rw [after_orDirectory]
          exact ih
    · rw [after_orDirectory]

/-- A file that cannot be written leaves all files as they were. -/
theorem files_left_of_write {v : Volume} {path : Text} {contents : ByteArray}
    {fault : WriteFault} (h : v.write path contents = .error fault) :
    fault.left.files = v.files := by
  have hfiles := v.files_after_ensureDirectory (components path).reverse.tail
  rcases bind_eq_error_iff.1 h with hmake | ⟨made, hmade, h⟩
  · rwa [hmake] at hfiles
  · rw [hmade] at hfiles
    split at h
    · obtain rfl := Except.error.inj h
      exact hfiles
    · obtain rfl := Except.error.inj h
      exact hfiles
    all_goals exact absurd h (by simp)

end Volume

end PackageDocs
