import Mathlib.Data.List.Basic
import HttpSnippet.Text.Case

/-!
# Upper case of upper case

What a character becomes in upper case is in upper case already, so a text that was brought into
upper case stays as it is. The tables are compared as sets of code points, and a set is kept as the
bits of a number: that the images share no member with what is changed is one operation then.
-/
namespace HttpSnippet.Text

/-! ### Sets of code points -/

/-- The set of some numbers, as the bits of a single one. -/
def bits (ns : List Nat) : Nat := ns.foldr (fun n mask => 1 <<< n ||| mask) 0

theorem testBit_bits {ns : List Nat} {n : Nat} : (bits ns).testBit n = true ↔ n ∈ ns := by
  induction ns with
  | nil => simp [bits]
  | cons m ns ih =>
    have hstep : bits (m :: ns) = 1 <<< m ||| bits ns := rfl
    rw [hstep, Nat.testBit_or, Bool.or_eq_true, ih, List.mem_cons, Nat.one_shiftLeft,
      Nat.testBit_two_pow, decide_eq_true_eq, eq_comm]

theorem not_mem_of_bits {ms ns : List Nat} (h : bits ms &&& bits ns = 0) {n : Nat} (hn : n ∈ ms) :
    n ∉ ns := by
  intro hn'
  have hbit : (bits ms &&& bits ns).testBit n = true := by
    rw [Nat.testBit_and, testBit_bits.mpr hn, testBit_bits.mpr hn']
    rfl
  rw [h, Nat.zero_testBit] at hbit
  cases hbit

/-! ### Mappings -/

/-- The code points that a run covers. -/
def CaseRun.members (run : CaseRun) : List Nat :=
  List.range' run.first ((run.last - run.first) / run.stride + 1) run.stride

def CaseRun.image (run : CaseRun) (n : Nat) : Nat := ((n : Int) + run.shift).toNat

/-- The code points that a mapping may change. -/
def changed (runs : List CaseRun) (expansions : List (Nat × List Nat)) : List Nat :=
  runs.flatMap CaseRun.members ++ expansions.map (·.1)

/-- The code points that a mapping changes others to. -/
def images (runs : List CaseRun) (expansions : List (Nat × List Nat)) : List Nat :=
  runs.flatMap (fun run => run.members.map run.image) ++ expansions.flatMap (·.2)

variable {runs : List CaseRun} {expansions : List (Nat × List Nat)} {c d : Char} {ns : List Nat}

theorem CaseRun.mem_members {run : CaseRun} {n : Nat} (h : run.covers n = true) :
    n ∈ run.members := by
  simp only [CaseRun.covers, Bool.and_eq_true, decide_eq_true_eq, beq_iff_eq] at h
  obtain ⟨⟨hfirst, hlast⟩, hmod⟩ := h
  have hn : n = run.first + run.stride * ((n - run.first) / run.stride) := by
    rw [Nat.mul_div_cancel' (Nat.dvd_of_mod_eq_zero hmod)]
    omega
  refine List.mem_range'.mpr ⟨_, ?_, hn⟩
  exact Nat.lt_succ_of_le (Nat.div_le_div_right (by omega))

theorem mapCase_of_not_mem_changed (h : c.toNat ∉ changed runs expansions) :
    mapCase runs expansions c = [c] := by
  simp only [changed, List.mem_append, not_or, List.mem_flatMap, List.mem_map, not_exists,
    not_and] at h
  have hexpansions : expansions.find? (·.1 == c.toNat) = none :=
    List.find?_eq_none.mpr fun e he heq => h.2 e he (eq_of_beq heq)
  have hruns : runs.find? (·.covers c.toNat) = none :=
    List.find?_eq_none.mpr fun run hrun hcovers => h.1 run hrun (CaseRun.mem_members hcovers)
  rw [mapCase, hexpansions, hruns]

/-- What comes of a character is that character, or it has a code point among the images. -/
theorem mem_mapCase (h : d ∈ mapCase runs expansions c) :
    mapCase runs expansions c = [c] ∨ ∃ n ∈ images runs expansions, d = Char.ofNat n := by
  unfold mapCase at h ⊢
  cases hexpansions : expansions.find? (·.1 == c.toNat) with
  | some e =>
    rw [hexpansions] at h
    obtain ⟨n, hn, rfl⟩ := List.mem_map.mp h
    have hmem := List.mem_of_find?_eq_some hexpansions
    exact .inr ⟨n, List.mem_append_right _ (List.mem_flatMap.mpr ⟨e, hmem, hn⟩), rfl⟩
  | none =>
    cases hruns : runs.find? (·.covers c.toNat) with
    | none => exact .inl rfl
    | some run =>
      simp only [hexpansions, hruns, List.mem_singleton] at h
      have hmem := List.mem_of_find?_eq_some hruns
      have hcovers : run.covers c.toNat = true := by simpa using List.find?_some hruns
      have himage := List.mem_map_of_mem (f := run.image) (CaseRun.mem_members hcovers)
      exact .inr ⟨_, List.mem_append_left _ (List.mem_flatMap.mpr ⟨run, hmem, himage⟩), h⟩

theorem toNat_ofNat {n : Nat} (h : n.isValidChar) : (Char.ofNat n).toNat = n := by
  rw [Char.ofNat, dif_pos h]
  rfl

/-- A mapping whose images are characters that it does not change has nothing left to do. -/
theorem mapCase_of_mem_mapCase (himages : ∀ n ∈ images runs expansions, n.isValidChar)
    (h : bits (images runs expansions) &&& bits (changed runs expansions) = 0)
    (hd : d ∈ mapCase runs expansions c) : mapCase runs expansions d = [d] := by
  rcases mem_mapCase hd with hself | ⟨n, hn, rfl⟩
  · rw [hself, List.mem_singleton] at hd
    rwa [hd]
  · refine mapCase_of_not_mem_changed ?_
    rw [toNat_ofNat (himages n hn)]
    exact not_mem_of_bits h hn

/-! ### Sources -/

/-- The code points that a run maps to one of some others. -/
def CaseRun.sources (run : CaseRun) (ns : List Nat) : List Nat :=
  (ns.map fun (n : Nat) => ((n : Int) - run.shift).toNat).filter run.covers

/-- The code points that a mapping may take to one of some others, or to a text that begins with
one. -/
def sources (runs : List CaseRun) (expansions : List (Nat × List Nat)) (ns : List Nat) : List Nat :=
  ns ++ (expansions.filter fun e => ns.contains (e.2.headD 0)).map (·.1) ++
    runs.flatMap (·.sources ns)

theorem toNat_ofNat_of_ne_zero {n : Nat} (h : (Char.ofNat n).toNat ≠ 0) :
    (Char.ofNat n).toNat = n := by
  refine toNat_ofNat ?_
  by_contra hvalid
  refine h ?_
  rw [Char.ofNat, dif_neg hvalid]
  rfl

theorem CaseRun.mem_sources {run : CaseRun} {n : Nat} (hcovers : run.covers n = true)
    (h : run.image n ∈ ns) (hzero : 0 ∉ ns) : n ∈ run.sources ns := by
  refine List.mem_filter.mpr ⟨List.mem_map.mpr ⟨run.image n, h, ?_⟩, hcovers⟩
  have hpos : run.image n ≠ 0 := fun heq => hzero (heq ▸ h)
  unfold CaseRun.image at hpos ⊢
  omega

/-- What a mapping takes to given characters can be read off the tables. -/
theorem mem_sources (hzero : 0 ∉ ns) (h : ((mapCase runs expansions c).headD c).toNat ∈ ns) :
    c.toNat ∈ sources runs expansions ns := by
  unfold mapCase at h
  simp only [sources, List.mem_append]
  cases hexpansions : expansions.find? (·.1 == c.toNat) with
  | some e =>
    simp only [hexpansions] at h
    have hkey : e.1 = c.toNat := by simpa using List.find?_some hexpansions
    have hmem := List.mem_of_find?_eq_some hexpansions
    cases himage : e.2 with
    | nil =>
      rw [himage] at h
      exact .inl (.inl h)
    | cons n image =>
      rw [himage, List.map_cons, List.headD_cons] at h
      rw [toNat_ofNat_of_ne_zero fun heq => hzero (heq ▸ h)] at h
      exact .inl (.inr (List.mem_map.mpr ⟨e, List.mem_filter.mpr ⟨hmem, by simpa [himage]⟩, hkey⟩))
  | none =>
    cases hruns : runs.find? (·.covers c.toNat) with
    | none =>
      simp only [hexpansions, hruns, List.headD_cons] at h
      exact .inl (.inl h)
    | some run =>
      simp only [hexpansions, hruns, List.headD_cons] at h
      have hmem := List.mem_of_find?_eq_some hruns
      have hcovers : run.covers c.toNat = true := by simpa using List.find?_some hruns
      have himage : run.image c.toNat ∈ ns := by
        rwa [toNat_ofNat_of_ne_zero fun heq => hzero (heq ▸ h)] at h
      exact .inr (List.mem_flatMap.mpr ⟨run, hmem, CaseRun.mem_sources hcovers himage hzero⟩)

/-- The code points of the characters that become one of some others without regard to case. -/
def candidates (ns : List Nat) : List Nat :=
  sources lowerRuns lowerExpansions (sources upperRuns upperExpansions ns)

theorem mem_candidates (hzero : 0 ∉ sources upperRuns upperExpansions ns)
    (h : foldCase c = [d]) (hd : d.toNat ∈ ns) : c.toNat ∈ candidates ns := by
  refine mem_sources hzero (mem_sources (fun hmem => hzero ?_) ?_)
  · exact List.mem_append_left _ (List.mem_append_left _ hmem)
  · rw [foldCase] at h
    rwa [h]

/-! ### Upper case -/

theorem isValidChar_of_mem_images : ∀ n ∈ images upperRuns upperExpansions, n.isValidChar := by
  decide +kernel

theorem bits_images_and_changed :
    bits (images upperRuns upperExpansions) &&& bits (changed upperRuns upperExpansions) = 0 := by
  decide +kernel

/-- Upper case has no other upper case. -/
theorem toUpper_toUpper (t : Text) : t.toUpper.toUpper = t.toUpper := by
  have hfixed : ∀ d ∈ t.toUpper, mapCase upperRuns upperExpansions d = [d] := by
    intro d hd
    obtain ⟨c, -, hd⟩ := List.mem_flatMap.mp hd
    exact mapCase_of_mem_mapCase isValidChar_of_mem_images bits_images_and_changed hd
  calc t.toUpper.toUpper
    _ = t.toUpper.flatMap fun d => [d] := List.flatMap_congr hfixed
    _ = t.toUpper := List.flatMap_singleton' _

end HttpSnippet.Text
