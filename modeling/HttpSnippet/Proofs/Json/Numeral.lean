import HttpSnippet.Json.Printer
import HttpSnippet.Json.Reader
import HttpSnippet.Proofs.Number.Shortest
import HttpSnippet.Value.Basic

/-!
# Numbers in JSON

A numeral is read up to the first character that cannot belong to it. Integers come back from their
digits; a floating-point number is written as one of two kinds of numeral, whatever the layout of
its decimal, and reading a numeral rounds the decimal that it stands for. The special values are
literal names to the reader.
-/
namespace HttpSnippet.Json

/-! ### Runs of digits -/

/-- Digits only. -/
def Digits (t : Text) : Prop := ∀ c ∈ t, isDigit c = true

/-- No digit stands first. -/
def NoDigit (rest : Text) : Prop := ∀ c, rest.head? = some c → isDigit c = false

/-- What may follow a numeral without becoming part of it. -/
def EndsNumeral (rest : Text) : Prop :=
  ∀ c, rest.head? = some c → isDigit c = false ∧ c ≠ '.' ∧ c ≠ 'e' ∧ c ≠ 'E'

theorem EndsNumeral.noDigit {rest : Text} (h : EndsNumeral rest) : NoDigit rest :=
  fun c hc => (h c hc).1

theorem noDigit_cons {c : Char} (hc : isDigit c = false) (rest : Text) : NoDigit (c :: rest) := by
  intro b hb
  obtain rfl := Option.some.inj hb
  exact hc

theorem isDigit_eq (c : Char) : isDigit c = c.isDigit := by
  simp [isDigit, Char.isDigit, Char.le_def, UInt32.le_iff_toNat_le]

theorem digits_ofNat (n : Nat) : Digits (Text.ofNat n) := by
  intro c hc
  rw [isDigit_eq]
  exact Nat.isDigit_of_mem_toDigits (by decide) (by decide) hc

theorem ofNat_ne_nil (n : Nat) : Text.ofNat n ≠ [] := Nat.toDigits_ne_nil

/-- A positive number is written without a leading zero. -/
theorem head_ofNat {n : Nat} (hn : 0 < n) : (Text.ofNat n).head? ≠ some '0' := by
  induction n using Nat.strong_induction_on with
  | h n ih =>
    rw [Text.ofNat, Nat.toDigits_eq_if (by decide)]
    split
    · simp
      omega
    · have hquot := ih (n / 10) (by omega) (by omega)
      rw [List.head?_append_of_ne_nil _ Nat.toDigits_ne_nil]
      exact hquot

theorem digitsValue_eq (t : Text) : digitsValue t = Nat.ofDigitChars 10 t 0 := by
  rw [Nat.ofDigitChars_eq_foldl]
  rfl

theorem digitsValue_ofNat (n : Nat) : digitsValue (Text.ofNat n) = n := by
  rw [digitsValue_eq]
  exact Nat.ofDigitChars_ten_toDigits

theorem takeWhile_digits {ds rest : Text} (hd : Digits ds) (hr : NoDigit rest) :
    (ds ++ rest).takeWhile isDigit = ds := by
  rw [List.takeWhile_append_of_pos hd]
  cases rest with
  | nil => simp
  | cons c rest => rw [List.takeWhile_cons_of_neg (by simp [hr c rfl]), List.append_nil]

theorem dropWhile_digits {ds rest : Text} (hd : Digits ds) (hr : NoDigit rest) :
    (ds ++ rest).dropWhile isDigit = rest := by
  rw [List.dropWhile_append_of_pos hd]
  cases rest with
  | nil => rfl
  | cons c rest => rw [List.dropWhile_cons_of_neg (by simp [hr c rfl])]

/-! ### The parts of a numeral -/

/-- A whole part: digits, without a leading zero unless it is zero itself. -/
structure IsWhole (ds : Text) : Prop where
  digits : Digits ds
  nonempty : ds ≠ []
  leading : ds.head? ≠ some '0' ∨ ds = ['0']

theorem isWhole_ofNat (n : Nat) : IsWhole (Text.ofNat n) where
  digits := digits_ofNat n
  nonempty := ofNat_ne_nil n
  leading := by
    rcases Nat.eq_zero_or_pos n with rfl | hn
    · exact .inr rfl
    · exact .inl (head_ofNat hn)

theorem integerPart?_append {ds rest : Text} (hd : IsWhole ds) (hr : NoDigit rest) :
    integerPart? (ds ++ rest) = some (ds, rest) := by
  rcases hd.leading with h | rfl
  · obtain ⟨c, ds', rfl⟩ := List.exists_cons_of_ne_nil hd.nonempty
    unfold integerPart?
    split
    · next heq =>
      obtain ⟨rfl, -⟩ := List.cons.inj heq
      exact absurd rfl h
    · rw [takeWhile_digits hd.digits hr, dropWhile_digits hd.digits hr]
  · rfl

theorem fraction?_append {ds rest : Text} (hd : Digits ds) (hne : ds ≠ []) (hr : NoDigit rest) :
    fraction? ('.' :: (ds ++ rest)) = some (ds, rest) := by
  obtain ⟨c, ds', rfl⟩ := List.exists_cons_of_ne_nil hne
  unfold fraction?
  simp only [takeWhile_digits hd hr, dropWhile_digits hd hr]

theorem fraction?_eq_none {rest : Text} (h : rest.head? ≠ some '.') : fraction? rest = none := by
  unfold fraction?
  split
  · exact absurd rfl h
  · rfl

/-- A number with its sign. -/
def withSign (negative : Bool) (n : Nat) : Int := if negative then -(n : Int) else n

/-- The sign of an exponent, which is always written. -/
def signMark (negative : Bool) : Char := if negative then '-' else '+'

theorem exponent?_append (negative : Bool) {ds rest : Text} (hd : Digits ds) (hne : ds ≠ [])
    (hr : NoDigit rest) :
    exponent? ('e' :: signMark negative :: (ds ++ rest)) =
      some (withSign negative (digitsValue ds), 2 + ds.length, rest) := by
  obtain ⟨c, ds', rfl⟩ := List.exists_cons_of_ne_nil hne
  have htake := takeWhile_digits hd hr
  have hdrop := dropWhile_digits hd hr
  generalize (c :: ds') ++ rest = t at htake hdrop ⊢
  cases negative with
  | true => simp [exponent?, signMark, withSign, htake, hdrop]
  | false => simp [exponent?, signMark, withSign, htake, hdrop]

theorem exponent?_eq_none {rest : Text} (h : EndsNumeral rest) : exponent? rest = none := by
  cases rest with
  | nil => rfl
  | cons c rest =>
    obtain ⟨-, -, he, hE⟩ := h c rfl
    simp [exponent?, he, hE]

/-! ### Numerals -/

/-- A minus sign in front of a negative number. -/
def signText (negative : Bool) : Text := if negative then ['-'] else []

/-- A point with the places behind it, if there are any. -/
def pointText : Text → Text
  | [] => []
  | d :: ds => '.' :: d :: ds

variable {negative : Bool} {whole places rest : Text}

/-- What starts with a whole part starts with a digit, so with no sign. -/
theorem IsWhole.append_eq_cons (hw : IsWhole whole) (t : Text) :
    ∃ c u, whole ++ t = c :: u ∧ isDigit c = true := by
  obtain ⟨c, ds, rfl⟩ := List.exists_cons_of_ne_nil hw.nonempty
  exact ⟨c, ds ++ t, rfl, hw.digits c List.mem_cons_self⟩

theorem ne_of_isDigit {b c : Char} (hc : isDigit c = true) (hb : isDigit b = false) : c ≠ b := by
  rintro rfl
  exact absurd (hb.symm.trans hc) (by decide)

/-- The whole part of a numeral, when something other than a digit follows it. -/
theorem readNumber_int (negative : Bool) (position : Nat) (hw : IsWhole whole)
    (hlength : whole.length ≤ Number.maxDigits) (hr : EndsNumeral rest) :
    ∃ p, readNumber ⟨position, signText negative ++ (whole ++ rest)⟩ =
      .ok (.int (withSign negative (digitsValue whole)), ⟨p, rest⟩) := by
  have hpoint : rest.head? ≠ some '.' := fun h => (hr '.' h).2.1 rfl
  have hpart := integerPart?_append hw hr.noDigit
  have hlong : ¬ Number.maxDigits < whole.length := by omega
  obtain ⟨c, u, hcons, hc⟩ := hw.append_eq_cons rest
  have hsign : c ≠ '-' := ne_of_isDigit hc rfl
  rw [hcons] at hpart ⊢
  cases negative <;>
    simp [readNumber, signText, hsign, hpart, fraction?_eq_none hpoint, exponent?_eq_none hr,
      hlong, withSign]

/-- A numeral with places behind the point. -/
theorem readNumber_places (negative : Bool) (position : Nat) (hw : IsWhole whole)
    (hp : Digits places) (hne : places ≠ []) (hr : EndsNumeral rest) :
    ∃ p, readNumber ⟨position, signText negative ++ (whole ++ '.' :: (places ++ rest))⟩ =
      .ok (.float (Binary64.ofDecimal negative (digitsValue (whole ++ places)) (-places.length)),
        ⟨p, rest⟩) := by
  have hpart := integerPart?_append hw (noDigit_cons (c := '.') (by decide) (places ++ rest))
  have hplaces := fraction?_append hp hne hr.noDigit
  obtain ⟨c, u, hcons, hc⟩ := hw.append_eq_cons ('.' :: (places ++ rest))
  have hsign : c ≠ '-' := ne_of_isDigit hc rfl
  rw [hcons] at hpart ⊢
  cases negative <;> simp [readNumber, signText, hsign, hpart, hplaces, exponent?_eq_none hr]

/-- A numeral in scientific notation. -/
theorem readNumber_exponent (negative below : Bool) (position : Nat) {size : Text}
    (hw : IsWhole whole) (hp : Digits places) (hs : Digits size) (hne : size ≠ [])
    (hr : NoDigit rest) :
    ∃ p, readNumber ⟨position, signText negative ++
        (whole ++ (pointText places ++ 'e' :: signMark below :: (size ++ rest)))⟩ =
      .ok (.float (Binary64.ofDecimal negative (digitsValue (whole ++ places))
        (withSign below (digitsValue size) - places.length)), ⟨p, rest⟩) := by
  have hexponent := exponent?_append below hs hne hr
  set tail := 'e' :: signMark below :: (size ++ rest) with htail
  have hmark : NoDigit tail := noDigit_cons (by decide) _
  have hpart : integerPart? (whole ++ (pointText places ++ tail)) =
      some (whole, pointText places ++ tail) := by
    refine integerPart?_append hw ?_
    cases places with
    | nil => exact hmark
    | cons d ds => exact noDigit_cons (by decide) _
  have hnone : fraction? tail = none := fraction?_eq_none (by simp [htail])
  have hsome : ∀ d ds, places = d :: ds →
      fraction? ('.' :: d :: (ds ++ tail)) = some (places, tail) :=
    fun d ds heq => heq ▸ fraction?_append (heq ▸ hp) (List.cons_ne_nil d ds) hmark
  obtain ⟨c, u, hcons, hc⟩ := hw.append_eq_cons (pointText places ++ tail)
  have hsign : c ≠ '-' := ne_of_isDigit hc rfl
  rw [hcons] at hpart ⊢
  clear_value tail
  cases places with
  | nil =>
    rw [pointText, List.nil_append] at hpart
    cases negative <;> simp [readNumber, signText, hsign, hpart, hnone, hexponent]
  | cons d ds =>
    rw [pointText, List.cons_append, List.cons_append] at hpart
    cases negative <;> simp [readNumber, signText, hsign, hpart, hsome d ds rfl, hexponent]

/-- The numerals of floating-point numbers, with their digits and the power of ten these count. -/
inductive FloatNumeral : Text → Nat → Int → Prop where
  | places {whole places : Text} (hw : IsWhole whole) (hp : Digits places) (hne : places ≠ []) :
    FloatNumeral (whole ++ '.' :: places) (digitsValue (whole ++ places)) (-places.length)
  | exponent {whole places size : Text} (below : Bool) (hw : IsWhole whole) (hp : Digits places)
    (hs : Digits size) (hne : size ≠ []) :
    FloatNumeral (whole ++ (pointText places ++ 'e' :: signMark below :: size))
      (digitsValue (whole ++ places)) (withSign below (digitsValue size) - places.length)

theorem readNumber_float (negative : Bool) (position : Nat) {t : Text} {digits : Nat} {e : Int}
    (ht : FloatNumeral t digits e) (hr : EndsNumeral rest) :
    ∃ p, readNumber ⟨position, signText negative ++ (t ++ rest)⟩ =
      .ok (.float (Binary64.ofDecimal negative digits e), ⟨p, rest⟩) := by
  cases ht with
  | places hw hp hne =>
    rw [List.append_assoc, List.cons_append]
    exact readNumber_places negative position hw hp hne hr
  | exponent below hw hp hs hne =>
    rw [List.append_assoc, List.append_assoc, List.cons_append, List.cons_append]
    exact readNumber_exponent negative below position hw hp hs hne hr.noDigit

theorem Digits.append {s t : Text} (hs : Digits s) (ht : Digits t) : Digits (s ++ t) :=
  fun c hc => (List.mem_append.mp hc).elim (hs c) (ht c)

theorem digits_zeros (n : Nat) : Digits (List.replicate n '0') := by
  intro c hc
  obtain rfl := List.eq_of_mem_replicate hc
  rfl

theorem digitsValue_append_zeros (t : Text) (k : Nat) :
    digitsValue (t ++ List.replicate k '0') = digitsValue t * 10 ^ k := by
  rw [digitsValue_eq, digitsValue_eq, Nat.ofDigitChars_append, Nat.ofDigitChars_replicate_zero,
    mul_comm]

theorem digitsValue_zeros_append (k : Nat) (t : Text) :
    digitsValue (List.replicate k '0' ++ t) = digitsValue t := by
  rw [digitsValue_eq, digitsValue_eq, Nat.ofDigitChars_append, Nat.ofDigitChars_replicate_zero,
    mul_zero]

theorem isWhole_zero : IsWhole ['0'] := isWhole_ofNat 0

/-! ### The layouts of a decimal -/

variable {n : Nat}

/-- The leading digits of a positive number can start a numeral. -/
theorem isWhole_append {ds t : Text} (hn : 0 < n) (hds : ds <+: Text.ofNat n) (hne : ds ≠ [])
    (ht : Digits t) : IsWhole (ds ++ t) where
  digits := Digits.append (fun c hc => digits_ofNat n c (hds.subset hc)) ht
  nonempty := List.append_ne_nil_of_left_ne_nil hne t
  leading := by
    obtain ⟨u, hu⟩ := hds
    have hhead := head_ofNat hn
    rw [← hu, List.head?_append_of_ne_nil _ hne] at hhead
    rw [List.head?_append_of_ne_nil _ hne]
    exact .inl hhead

theorem floatNumeral_zeros (hn : 0 < n) (k : Nat) :
    FloatNumeral (Text.ofNat n ++ List.replicate k '0' ++ ".0") (n * 10 ^ (k + 1)) (-1) := by
  have hwhole := isWhole_append hn List.prefix_rfl (ofNat_ne_nil n) (digits_zeros k)
  have hnumeral := FloatNumeral.places hwhole (digits_zeros 1) (by simp)
  rw [List.append_assoc _ _ (List.replicate 1 '0'), List.replicate_append_replicate,
    digitsValue_append_zeros, digitsValue_ofNat] at hnumeral
  exact hnumeral

theorem floatNumeral_split (hn : 0 < n) {i : Nat} (hi : 0 < i) (hlt : i < (Text.ofNat n).length) :
    FloatNumeral ((Text.ofNat n).take i ++ "." ++ (Text.ofNat n).drop i) n
      (i - (Text.ofNat n).length) := by
  have hne : (Text.ofNat n).take i ≠ [] := by simp [hi.ne', ofNat_ne_nil]
  have hwhole := isWhole_append (t := []) hn (List.take_prefix i _) hne (by simp [Digits])
  have hplaces : Digits ((Text.ofNat n).drop i) :=
    fun c hc => digits_ofNat n c (List.mem_of_mem_drop hc)
  have hnumeral := FloatNumeral.places hwhole hplaces (by simp [hlt])
  rw [List.append_nil, List.take_append_drop, digitsValue_ofNat, List.length_drop,
    Nat.cast_sub hlt.le, neg_sub] at hnumeral
  simpa using hnumeral

theorem floatNumeral_below (n k : Nat) :
    FloatNumeral ("0." ++ List.replicate k '0' ++ Text.ofNat n) n
      (-(k + (Text.ofNat n).length : Nat)) := by
  have hnumeral := FloatNumeral.places isWhole_zero ((digits_zeros k).append (digits_ofNat n))
    (List.append_ne_nil_of_right_ne_nil _ (ofNat_ne_nil n))
  have hzeros : digitsValue (['0'] ++ (List.replicate k '0' ++ Text.ofNat n)) = n :=
    (digitsValue_zeros_append (k + 1) (Text.ofNat n)).trans (digitsValue_ofNat n)
  rw [hzeros, List.length_append, List.length_replicate] at hnumeral
  exact hnumeral

/-- The digits of an exponent, two at least. -/
theorem digitsValue_size (k : Nat) :
    let size := Text.ofNat k
    let padded := if size.length = 1 then '0' :: size else size
    Digits padded ∧ padded ≠ [] ∧ digitsValue padded = k := by
  dsimp only
  split
  · exact ⟨(digits_zeros 1).append (digits_ofNat k), List.cons_ne_nil _ _,
      (digitsValue_zeros_append 1 _).trans (digitsValue_ofNat k)⟩
  · exact ⟨digits_ofNat k, ofNat_ne_nil k, digitsValue_ofNat k⟩

theorem withSign_natAbs (n : Int) : withSign (decide (n < 0)) n.natAbs = n := by
  unfold withSign
  split_ifs with h
  · have hneg := of_decide_eq_true h
    omega
  · have hpos : ¬ n < 0 := fun hneg => h (decide_eq_true hneg)
    omega

theorem floatNumeral_scientific (hn : 0 < n) (lead : Int) :
    let ds := Text.ofNat n
    let fraction : Text := if ds.length = 1 then [] else '.' :: ds.drop 1
    let size := Text.ofNat lead.natAbs
    let mark : Text := if lead < 0 then "e-" else "e+"
    FloatNumeral (ds.take 1 ++ fraction ++ mark ++ (if size.length = 1 then '0' :: size else size))
      n (lead - (ds.length - 1 : Nat)) := by
  intro ds fraction size mark
  have hne : ds.take 1 ≠ [] := by simp [ds, ofNat_ne_nil]
  have hwhole := isWhole_append (t := []) hn (List.take_prefix 1 _) hne (by simp [Digits])
  have hplaces : Digits (ds.drop 1) := fun c hc => digits_ofNat n c (List.mem_of_mem_drop hc)
  obtain ⟨hsize, hnil, hvalue⟩ := digitsValue_size lead.natAbs
  have hnumeral := FloatNumeral.exponent (decide (lead < 0)) hwhole hplaces hsize hnil
  have hpoint : fraction = pointText (ds.drop 1) := by
    have hpos : 0 < ds.length := List.length_pos_iff.mpr (ofNat_ne_nil n)
    unfold fraction
    split
    · next h => rw [List.drop_eq_nil_of_le h.le, pointText]
    · next h =>
      cases hdrop : ds.drop 1 with
      | nil => exact absurd (List.drop_eq_nil_iff.mp hdrop) (by omega)
      | cons c t => rfl
  have hmark : mark = ['e', signMark (decide (lead < 0))] := by
    by_cases h : lead < 0 <;> simp [mark, signMark, h]
  rw [hvalue, withSign_natAbs, List.append_nil, List.take_append_drop, digitsValue_ofNat,
    List.length_drop] at hnumeral
  rw [hpoint, hmark]
  simpa using hnumeral

/-- A decimal is written as a numeral of its value. -/
theorem floatNumeral_notate {d : Binary64.Decimal} (hd : 0 < d.digits) :
    ∃ digits e, FloatNumeral d.notate digits e ∧ (digits : ℚ) * 10 ^ e = d.value := by
  obtain ⟨n, k⟩ := d
  replace hd : 0 < n := hd
  have hpos : 0 < (Text.ofNat n).length := List.length_pos_iff.mpr (ofNat_ne_nil n)
  unfold Binary64.Decimal.notate Binary64.Decimal.value
  dsimp only
  split
  · next hlead =>
    split
    · next hk =>
      refine ⟨_, _, floatNumeral_zeros hd k.toNat, ?_⟩
      obtain ⟨j, rfl⟩ := Int.eq_ofNat_of_zero_le hk
      simp [pow_succ]
      ring
    · split
      · next hk hle =>
        refine ⟨_, _, floatNumeral_split hd (Nat.succ_pos _) (by omega), ?_⟩
        congr 2
        omega
      · next hk hle =>
        refine ⟨_, _, floatNumeral_below n _, ?_⟩
        congr 2
        omega
  · refine ⟨_, _, floatNumeral_scientific hd _, ?_⟩
    congr 2
    omega

/-! ### Numbers -/

theorem floatText_finite (negative : Bool) (m : Nat) (q : Int) :
    floatText (.finite negative m q) =
      signText negative ++ if m = 0 then ("0.0" : Text) else (Binary64.shortest m q).notate := by
  cases negative <;> rfl

/-- A finite number is written as a numeral that rounds to it. -/
theorem exists_floatNumeral {m : Nat} {q : Int}
    (hc : Binary64.Canonical (.finite negative m q)) :
    ∃ t digits e, floatText (.finite negative m q) = signText negative ++ t ∧
      FloatNumeral t digits e ∧ Binary64.ofDecimal negative digits e = .finite negative m q := by
  rw [floatText_finite]
  split
  · next hm =>
    subst hm
    obtain rfl : q = Binary64.minExponent := hc.2.1.resolve_left (by norm_num)
    exact ⟨_, _, _, rfl, .places isWhole_zero (digits_zeros 1) (by simp), rfl⟩
  · next hm =>
    have hpos : 0 < m := Nat.pos_of_ne_zero hm
    have hround := Binary64.roundsTo_shortest (q := q) hpos
    have hvalue : 0 < (Binary64.shortest m q).value :=
      lt_of_lt_of_le (lt_of_lt_of_le (by positivity) (Binary64.lowEnd_pos hpos hc.2.2.1))
        hround.lowEnd_le
    have hdigits : 0 < (Binary64.shortest m q).digits := by
      refine Nat.pos_of_ne_zero fun hzero => hvalue.ne' ?_
      rw [Binary64.Decimal.value, hzero, Nat.cast_zero, zero_mul]
    obtain ⟨digits, e, hnumeral, heq⟩ := floatNumeral_notate hdigits
    have hdigits' : 0 < digits := by
      refine Nat.pos_of_ne_zero fun hzero => hvalue.ne' ?_
      rw [← heq, hzero, Nat.cast_zero, zero_mul]
    exact ⟨_, digits, e, rfl, hnumeral, Binary64.ofDecimal_eq hdigits' hpos hc (heq ▸ hround)⟩

/-- An integer that can be written has no more digits than a numeral may have. -/
theorem length_ofNat_le_iff {n : Int} :
    (Text.ofNat n.natAbs).length ≤ Number.maxDigits ↔ Value.writable n = true := by
  rw [Text.ofNat, Nat.length_toDigits_le_iff (by decide) (by decide)]
  simp only [Value.writable, Number.maxDigits, decide_eq_true_eq]

theorem ofInt_eq (n : Int) : Text.ofInt n = signText (decide (n < 0)) ++ Text.ofNat n.natAbs := by
  cases n with
  | ofNat n => rfl
  | negSucc n =>
    rw [decide_eq_true (Int.negSucc_lt_zero n)]
    rfl

/-- No literal name starts like a numeral. -/
theorem find?_literals_eq_none {c : Char} (hc : isDigit c = true) (negative : Bool) (t : Text) :
    (literals.find? fun (name, _) => name.isPrefixOf (signText negative ++ c :: t)) = none := by
  have hne {b : Char} (hb : isDigit b = false) : b ≠ c := (ne_of_isDigit hc hb).symm
  cases negative <;>
    simp [literals, signText, hne (b := 'n') rfl, hne (b := 't') rfl, hne (b := 'f') rfl,
      hne (b := 'N') rfl, hne (b := 'I') rfl, hne (b := '-') rfl]

theorem readAtom_whole (hw : IsWhole whole) (position : Nat) (t : Text) :
    readAtom ⟨position, signText negative ++ (whole ++ t)⟩ =
      readNumber ⟨position, signText negative ++ (whole ++ t)⟩ := by
  obtain ⟨c, u, hcons, hc⟩ := hw.append_eq_cons t
  rw [hcons, readAtom, find?_literals_eq_none hc]

theorem readAtom_int (position : Nat) {n : Int} (hn : Value.writable n = true)
    (hr : EndsNumeral rest) :
    ∃ p, readAtom ⟨position, Text.ofInt n ++ rest⟩ = .ok (.int n, ⟨p, rest⟩) := by
  have hw := isWhole_ofNat n.natAbs
  obtain ⟨p, hp⟩ := readNumber_int (decide (n < 0)) position hw
    (length_ofNat_le_iff.mpr hn) hr
  rw [ofInt_eq, List.append_assoc, readAtom_whole hw, hp, digitsValue_ofNat, withSign_natAbs]
  exact ⟨p, rfl⟩

theorem FloatNumeral.exists_whole {t : Text} {digits : Nat} {e : Int}
    (ht : FloatNumeral t digits e) : ∃ whole u, IsWhole whole ∧ t = whole ++ u := by
  cases ht with
  | places hw hp hne => exact ⟨_, _, hw, rfl⟩
  | exponent below hw hp hs hne => exact ⟨_, _, hw, rfl⟩

/-- What a floating-point number is written as is read as this number. -/
theorem readAtom_float (position : Nat) {x : Binary64} (hx : x.Canonical) (hr : EndsNumeral rest) :
    ∃ p, readAtom ⟨position, floatText x ++ rest⟩ = .ok (.float x, ⟨p, rest⟩) := by
  cases x with
  | nan => exact ⟨position + 3, rfl⟩
  | infinity negative =>
    cases negative with
    | true => exact ⟨position + 9, rfl⟩
    | false => exact ⟨position + 8, rfl⟩
  | finite negative m q =>
    obtain ⟨t, digits, e, htext, hnumeral, hround⟩ := exists_floatNumeral hx
    obtain ⟨whole, u, hw, rfl⟩ := hnumeral.exists_whole
    obtain ⟨p, hp⟩ := readNumber_float negative position hnumeral hr
    rw [htext, List.append_assoc, List.append_assoc, readAtom_whole hw, ← List.append_assoc whole,
      hp, hround]
    exact ⟨p, rfl⟩

theorem readAtom_null (position : Nat) (rest : Text) :
    readAtom ⟨position, "null" ++ rest⟩ = .ok (.null, ⟨position + 4, rest⟩) := rfl

theorem readAtom_bool (position : Nat) (b : Bool) (rest : Text) :
    ∃ p, readAtom ⟨position, (if b then "true" else "false" : Text) ++ rest⟩ =
      .ok (.bool b, ⟨p, rest⟩) := by
  cases b with
  | true => exact ⟨position + 4, rfl⟩
  | false => exact ⟨position + 5, rfl⟩

end HttpSnippet.Json
