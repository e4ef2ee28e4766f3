import Mathlib.Data.List.Basic
import HttpSnippet.Files.Tree

/-!
# What writing a file changes

The way to a place leads through directories only, so everything above it is there already. Writing
a file changes the entry at its place and no other one: no directory appears and no file elsewhere.
-/
namespace HttpSnippet

theorem Place.isAbove_iff {p q : Place} : p.isAbove q = true ↔
    p.fromRoot = q.fromRoot ∧ p.levelsUp = q.levelsUp ∧ p.below ≠ q.below ∧
      p.below <+: q.below := by
  simp [Place.isAbove, and_assoc]

namespace FileTree

open Place

variable {files after : FileTree} {place other : Place} {p : Path} {bytes : List UInt8}

/-- A place is known and holds no directory, so that a file can be written there. -/
def Writable (files : FileTree) (p : Path) : Prop :=
  ∃ place, files.place p = .ok place ∧ files.get? place ≠ some .directory

/-- One tree has a file with some content at a place, and everything else from the other one. -/
structure Written (files : FileTree) (p : Path) (bytes : List UInt8) (after : FileTree) : Prop where
  read : after.read p = .ok bytes
  other : ∀ place, files.place p ≠ .ok place → after.get? place = files.get? place

/-! ### Ways to a place -/

/-- Everything above a place is a directory. -/
def Reachable (files : FileTree) (place : Place) : Prop :=
  ∀ above : Place, above.isAbove place = true → files.get? above = some .directory

theorem reachable_start (files : FileTree) (p : Path) : files.Reachable p.start := by
  intro above h
  obtain ⟨-, -, hne, hprefix⟩ := isAbove_iff.mp h
  exact absurd (List.prefix_nil.mp hprefix) hne

theorem get?_of_step {part : Text} {next : Place} (h : files.step place part = .ok next) :
    files.get? place = some .directory ∧ next = place.follow part := by
  unfold step at h
  split at h
  · rename_i hdirectory
    split at h
    · cases h
    · cases h
      exact ⟨hdirectory, rfl⟩
  · cases h
  · cases h

theorem Reachable.parent (h : files.Reachable place) : files.Reachable place.parent := by
  unfold Place.parent
  split
  · rename_i hempty
    split
    · exact h
    · intro above habove
      obtain ⟨-, -, hne, hprefix⟩ := isAbove_iff.mp habove
      rw [List.isEmpty_iff.mp hempty] at hne hprefix
      exact absurd (List.prefix_nil.mp hprefix) hne
  · rename_i hempty
    intro above habove
    obtain ⟨hroot, hlevels, -, hprefix⟩ := isAbove_iff.mp habove
    refine h above (isAbove_iff.mpr ⟨hroot, hlevels, ?_, hprefix.trans (List.dropLast_prefix _)⟩)
    intro heq
    have hlength := hprefix.length_le
    have hpos := List.length_pos_iff.mpr
      (List.isEmpty_eq_false_iff.mp (Bool.eq_false_iff.mpr hempty))
    rw [heq, List.length_dropLast] at hlength
    omega

theorem Reachable.follow (h : files.Reachable place) (hplace : files.get? place = some .directory)
    (part : Text) : files.Reachable (place.follow part) := by
  unfold Place.follow
  split
  · exact h.parent
  · intro above habove
    obtain ⟨hroot, hlevels, hne, hprefix⟩ := isAbove_iff.mp habove
    have hprefix : above.below <+: place.below := by
      rcases List.prefix_concat_iff.mp hprefix with heq | hprefix
      · exact absurd heq hne
      · exact hprefix
    by_cases heq : above.below = place.below
    · have habove : above = place := by
        cases above
        cases place
        simp_all
      rwa [habove]
    · exact h above (isAbove_iff.mpr ⟨hroot, hlevels, heq, hprefix⟩)

/-- The directories on the way to a place. -/
theorem reachable_of_foldlM {start : Place} {parts : List Text} (hstart : files.Reachable start)
    (h : parts.foldlM files.step start = .ok place) : files.Reachable place := by
  induction parts generalizing start with
  | nil =>
    cases h
    exact hstart
  | cons part parts ih =>
    rw [List.foldlM_cons] at h
    cases hstep : files.step start part with
    | error e =>
      rw [hstep] at h
      cases h
    | ok next =>
      rw [hstep] at h
      obtain ⟨hdirectory, rfl⟩ := get?_of_step hstep
      exact ih (hstart.follow hdirectory part) h

/-- A path that is not refused as a text is followed part by part. -/
theorem place_eq_ok_iff : files.place p = .ok place ↔ p.text.contains '\x00' = false ∧
    (Text.Utf8.encode p.text).length ≤ maxPathBytes ∧
      p.parts.foldlM files.step p.start = .ok place := by
  unfold FileTree.place
  cases p.text.contains '\x00' with
  | true => simp [throw, throwThe, MonadExceptOf.throw, bind, Except.bind]
  | false =>
    by_cases hlong : maxPathBytes < (Text.Utf8.encode p.text).length
    · have hle : ¬(Text.Utf8.encode p.text).length ≤ maxPathBytes := by omega
      simp [hlong, hle, throw, throwThe, MonadExceptOf.throw, bind, Except.bind]
    · have hle : (Text.Utf8.encode p.text).length ≤ maxPathBytes := by omega
      simp [hlong, hle]

theorem reachable_of_place (h : files.place p = .ok place) : files.Reachable place :=
  reachable_of_foldlM (reachable_start files p) (place_eq_ok_iff.mp h).2.2

/-! ### Setting an entry -/

/-- Setting an entry keeps the places of the others, and the first entry of each. -/
theorem find?_insert (files : FileTree) (place other : Place) (entry : FileEntry) :
    (files.insert place entry).entries.find? (·.1 = other) =
      if place = other then some (place, entry) else files.entries.find? (·.1 = other) := by
  unfold insert
  split
  · rename_i h
    obtain ⟨e, he, heq⟩ := List.any_eq_true.mp h
    have hkeys : ((fun e : Place × FileEntry => decide (e.1 = other)) ∘
        fun e => if e.1 = place then (place, entry) else e) = fun e => decide (e.1 = other) := by
      funext e
      by_cases he : e.1 = place <;> simp [he]
    rw [List.find?_map, hkeys]
    cases hfind : files.entries.find? (·.1 = other) with
    | none =>
      have hne : place ≠ other := by
        rintro rfl
        exact List.find?_eq_none.mp hfind e he heq
      rw [if_neg hne]
      rfl
    | some e =>
      obtain rfl : e.1 = other := by simpa using List.find?_some hfind
      by_cases hplace : place = e.1
      · simp [hplace]
      · simp [hplace, Ne.symm hplace]
  · rename_i h
    rw [List.find?_append]
    by_cases hplace : place = other
    · have hnone : files.entries.find? (·.1 = other) = none :=
        List.find?_eq_none.mpr fun e he heq => h (List.any_eq_true.mpr ⟨e, he, by rwa [hplace]⟩)
      simp [hnone, hplace]
    · simp [hplace]

theorem any_insert (files : FileTree) (place other : Place) (entry : FileEntry) :
    (files.insert place entry).entries.any (other.isAbove ·.1) =
      (files.entries.any (other.isAbove ·.1) || other.isAbove place) := by
  unfold insert
  split
  · rename_i h
    obtain ⟨e, he, heq⟩ := List.any_eq_true.mp h
    have hkeys : (files.entries.map fun e => if e.1 = place then (place, entry) else e).any
        (other.isAbove ·.1) = files.entries.any (other.isAbove ·.1) := by
      rw [List.any_map]
      congr 1
      funext e
      by_cases he : e.1 = place <;> simp [he]
    dsimp only
    rw [hkeys]
    cases habove : other.isAbove place with
    | false => simp
    | true =>
      have hmem : files.entries.any (other.isAbove ·.1) = true :=
        List.any_eq_true.mpr ⟨e, he, by rwa [of_decide_eq_true heq]⟩
      rw [hmem]
      rfl
  · simp

theorem get?_insert_self (files : FileTree) (place : Place) (entry : FileEntry) :
    (files.insert place entry).get? place = some entry := by
  rw [get?, find?_insert, if_pos rfl]

/-- Setting an entry changes no other one where everything above it is a directory. -/
theorem get?_insert_of_ne (h : files.Reachable place) (hne : other ≠ place) (entry : FileEntry) :
    (files.insert place entry).get? other = files.get? other := by
  have hdirectory : other.isAbove place = true → files.get? other = some .directory := h other
  unfold get? at hdirectory ⊢
  rw [find?_insert, if_neg hne.symm, any_insert]
  cases hfind : files.entries.find? (·.1 = other) with
  | some e => rfl
  | none =>
    rw [hfind] at hdirectory
    cases habove : other.isAbove place with
    | false => rw [Bool.or_false]
    | true =>
      have hd := hdirectory habove
      dsimp only at hd ⊢
      rw [hd]
      simp

/-! ### Writing -/

theorem write_eq_ok_iff : files.write p bytes = .ok after ↔
    ∃ place, files.place p = .ok place ∧ files.get? place ≠ some .directory ∧
      files.insert place (.file bytes) = after := by
  unfold write
  cases files.place p with
  | error e => simp [bind, Except.bind]
  | ok place =>
    cases hentry : files.get? place with
    | none => simp [bind, Except.bind, pure, Except.pure, hentry]
    | some entry =>
      cases entry <;> simp [bind, Except.bind, pure, Except.pure, throw, throwThe,
        MonadExceptOf.throw, hentry]

/-- A file can be written exactly where there is no directory. -/
theorem write_isOk_iff : (∃ after, files.write p bytes = .ok after) ↔ files.Writable p := by
  simp only [write_eq_ok_iff, Writable]
  constructor
  · rintro ⟨after, place, hplace, hentry, -⟩
    exact ⟨place, hplace, hentry⟩
  · rintro ⟨place, hplace, hentry⟩
    exact ⟨_, place, hplace, hentry, rfl⟩

/-- The way to a place leads past no file, so a file that is written is found the same way. -/
theorem foldlM_insert {start : Place} {parts : List Text}
    (hentry : files.get? place ≠ some .directory) (entry : FileEntry)
    (hplace : files.Reachable place) {result : Place}
    (h : parts.foldlM files.step start = .ok result) :
    parts.foldlM (files.insert place entry).step start = .ok result := by
  induction parts generalizing start with
  | nil => exact h
  | cons part parts ih =>
    rw [List.foldlM_cons] at h ⊢
    cases hstep : files.step start part with
    | error e =>
      rw [hstep] at h
      cases h
    | ok next =>
      rw [hstep] at h
      have hne : start ≠ place := by
        rintro rfl
        exact hentry (get?_of_step hstep).1
      have hstep' : (files.insert place entry).step start part = .ok next := by
        rw [← hstep, step, step, get?_insert_of_ne hplace hne]
      rw [hstep']
      exact ih h

/-- What was written is read again, and nothing else has changed. -/
theorem written_of_write (h : files.write p bytes = .ok after) : files.Written p bytes after := by
  obtain ⟨place, hplace, hentry, rfl⟩ := write_eq_ok_iff.mp h
  have hreachable := reachable_of_place hplace
  obtain ⟨hnul, hlength, hfold⟩ := place_eq_ok_iff.mp hplace
  have hplace' : (files.insert place (.file bytes)).place p = .ok place :=
    place_eq_ok_iff.mpr ⟨hnul, hlength, foldlM_insert hentry _ hreachable hfold⟩
  refine ⟨?_, fun other hother => get?_insert_of_ne hreachable ?_ _⟩
  · simp only [read, find, hplace', get?_insert_self, bind, Except.bind, pure, Except.pure]
  · rintro rfl
    exact hother hplace

end FileTree
end HttpSnippet
