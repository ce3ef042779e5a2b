import AsmVariants.Proofs.Template
import Mathlib.Algebra.Group.Nat.Defs

/-!
# `AsmVariants.Proofs.Placeholder.Order`: the order by number

`Placeholder.numericCompare` never computes a number. It leaves out leading zeros, then compares
lengths, then texts. `number` is the number that the digits denote, and `numericCompare_eq` says
that the comparison is the one of the numbers, and of the tokens where these are the same:

* `ofDigitChars_lt` and `le_ofDigitChars` bound a number by the length of its digits, from above
  and, where the first digit is no zero, from below. So the longer number is the greater.
* `dictionaryOrder_eq_compare` compares two numbers of one length from the first digit on.

Texts are compared by code points here and by bytes in `byteOrder`. For tokens that is the same,
since each of their characters is one byte (`byteOrder_token`).

By `numericCompare_eq` the comparison is a total order in which no two placeholders are equal
(`transCmp_numericCompare`, `lawfulEqCmp_numericCompare`). A list without repetitions is sorted by
such an order in one way only, so the sorted list of placeholders depends on nothing but which
placeholders are there. That is the last part of `numericCompare_orders_placeholders`.

Which order is used is said by name. An order is found under its own name only
(`orderOfName_eq_ok_iff`), and every other text is refused with one message
(`orderOfName_eq_error_iff`).
-/

set_option autoImplicit false

namespace AsmVariants.Proofs

open Text (dictionaryOrder)

/-! ### Names -/

/-- An order is found under its own name only. -/
theorem orderOfName_eq_ok_iff {t : Text} {order : PlaceholderOrder} :
    PlaceholderOrder.ofName t = .ok order ↔ order.name = t := by
  constructor
  · intro h
    unfold PlaceholderOrder.ofName at h
    split at h
    · exact nomatch h
    · next found hfound =>
      obtain rfl := Except.ok.inj h
      simpa using List.find?_some hfound
  · rintro rfl
    cases order <;> rfl

/-- A text is refused exactly if no order has this name, and always with the same message. -/
theorem orderOfName_eq_error_iff {t message : Text} :
    PlaceholderOrder.ofName t = .error message ↔
      message = PlaceholderOrder.unknownNameMessage ∧
        ∀ order : PlaceholderOrder, order.name ≠ t := by
  constructor
  · intro h
    -- The search has one way to fail, whatever the text is.
    refine ⟨?_, fun order hname => nomatch (orderOfName_eq_ok_iff.mpr hname).symm.trans h⟩
    unfold PlaceholderOrder.ofName at h
    split at h
    · exact (Except.error.inj h).symm
    · exact nomatch h
  · rintro ⟨rfl, hunknown⟩
    have hnone : [PlaceholderOrder.firstSeen, .numeric].find? (fun order => order.name == t) =
        none := by
      simp [hunknown]
    rw [PlaceholderOrder.ofName, hnone]

/-- Where the message does not matter, the same holds of the order that is found. -/
theorem orderOfName?_eq_some_iff {t : Text} {order : PlaceholderOrder} :
    PlaceholderOrder.ofName? t = some order ↔ order.name = t := by
  rw [← orderOfName_eq_ok_iff, PlaceholderOrder.ofName?]
  cases PlaceholderOrder.ofName t <;> simp [Except.toOption]

/-! ### Numbers and their digits

Both bounds are strict enough to compare numbers by the count of their digits, if there are no
leading zeros. -/

/-- The first digit counts for as many tens as there are digits behind it. -/
theorem ofDigitChars_cons (c : Char) (digits : Text) :
    Nat.ofDigitChars 10 (c :: digits) 0 =
      10 ^ digits.length * (c.toNat - '0'.toNat) + Nat.ofDigitChars 10 digits 0 := by
  rw [Nat.ofDigitChars_cons, Nat.ofDigitChars_eq_ofDigitChars_zero, Nat.mul_zero, Nat.zero_add]

/-- So many digits denote a number below that power of ten. -/
theorem ofDigitChars_lt {digits : Text} (h : ∀ c ∈ digits, c.isDigit) :
    Nat.ofDigitChars 10 digits 0 < 10 ^ digits.length := by
  induction digits with
  | nil => simp
  | cons c digits ih =>
    rw [List.forall_mem_cons] at h
    have hrest := ih h.2
    have hdigit : c.toNat - '0'.toNat ≤ 9 := by
      have hcode := Char.isDigit_iff_toNat.mp h.1
      have hzero : '0'.toNat = 48 := rfl
      have hnine : '9'.toNat = 57 := rfl
      omega
    -- The first digit counts nine powers at most, and what the others denote is below one more.
    have hfirst : 10 ^ digits.length * (c.toNat - '0'.toNat) ≤ 10 ^ digits.length * 9 :=
      Nat.mul_le_mul_left _ hdigit
    rw [ofDigitChars_cons, List.length_cons, Nat.pow_succ]
    omega

/-- Without a leading zero, a number is at least the power of ten at its first digit. -/
theorem le_ofDigitChars {c : Char} (digits : Text) (hc : c.isDigit) (hne : c ≠ '0') :
    10 ^ digits.length ≤ Nat.ofDigitChars 10 (c :: digits) 0 := by
  have hdigit : 1 ≤ c.toNat - '0'.toNat := by
    have hcode := Char.isDigit_iff_toNat.mp hc
    have hzero : c.toNat ≠ '0'.toNat := mt Char.toNat_inj.mp hne
    omega
  have hfirst : 10 ^ digits.length * 1 ≤ 10 ^ digits.length * (c.toNat - '0'.toNat) :=
    Nat.mul_le_mul_left _ hdigit
  rw [ofDigitChars_cons]
  omega

/-- A zero at the front does not count. -/
theorem ofDigitChars_dropWhile (digits : Text) :
    Nat.ofDigitChars 10 (digits.dropWhile (· == '0')) 0 = Nat.ofDigitChars 10 digits 0 := by
  induction digits with
  | nil => rfl
  | cons c digits ih =>
    rw [List.dropWhile_cons]
    split
    · next hc =>
      obtain rfl : c = '0' := by simpa using hc
      rw [ih, ofDigitChars_cons]
      simp
    · rfl

/-! ### Comparing digits

Of two numbers with equally many digits, the first digit that differs decides. What follows it is
worth less than one unit of it. -/

/-- Characters are compared by their code points. -/
theorem compare_eq_compare_toNat (c d : Char) : compare c d = compare c.toNat d.toNat := by
  show compareOfLessAndEq c d = compareOfLessAndEq c.toNat d.toNat
  have hlt : c < d ↔ c.toNat < d.toNat := by
    rw [Char.lt_def, UInt32.lt_iff_toNat_lt]
    rfl
  simp only [compareOfLessAndEq, hlt, Char.toNat_inj]

/-- Where the first digit is less, the number is less, whatever the digits behind it are. -/
theorem ofDigitChars_cons_lt {c d : Char} {xs ys : Text} (hxs : ∀ c ∈ xs, c.isDigit)
    (hc : c.isDigit) (hcd : c.toNat < d.toNat) (h : xs.length = ys.length) :
    Nat.ofDigitChars 10 (c :: xs) 0 < Nat.ofDigitChars 10 (d :: ys) 0 := by
  have hcode := Char.isDigit_iff_toNat.mp hc
  have hstep : c.toNat - '0'.toNat + 1 ≤ d.toNat - '0'.toNat := by omega
  have hfirst : 10 ^ ys.length * (c.toNat - '0'.toNat + 1) ≤
      10 ^ ys.length * (d.toNat - '0'.toNat) := Nat.mul_le_mul_left _ hstep
  have hrest := ofDigitChars_lt hxs
  rw [h] at hrest
  rw [ofDigitChars_cons, ofDigitChars_cons, h]
  rw [Nat.mul_add] at hfirst
  omega

/-- Numbers of one length are compared from the first digit on. -/
theorem dictionaryOrder_eq_compare {xs ys : Text} (hx : ∀ c ∈ xs, c.isDigit)
    (hy : ∀ c ∈ ys, c.isDigit) (h : xs.length = ys.length) :
    dictionaryOrder xs ys =
      compare (Nat.ofDigitChars 10 xs 0) (Nat.ofDigitChars 10 ys 0) := by
  induction xs generalizing ys with
  | nil =>
    cases ys with
    | nil => rfl
    | cons d ys => exact absurd h (by simp)
  | cons c xs ih =>
    cases ys with
    | nil => exact absurd h (by simp)
    | cons d ys =>
      rw [List.forall_mem_cons] at hx hy
      have hlength : xs.length = ys.length := by simpa using h
      rw [dictionaryOrder, List.compareLex_cons_cons, compare_eq_compare_toNat]
      rcases Nat.lt_trichotomy c.toNat d.toNat with hcd | hcd | hcd
      · have hless := ofDigitChars_cons_lt hx.2 hx.1 hcd hlength
        rw [Nat.compare_eq_lt.mpr hcd, Nat.compare_eq_lt.mpr hless]
        rfl
      · obtain rfl : c = d := Char.toNat_inj.mp hcd
        have hrest := ih hx.2 hy.2 hlength
        rw [dictionaryOrder] at hrest
        rw [Nat.compare_eq_eq.mpr rfl, Ordering.eq_then, hrest, ofDigitChars_cons,
          ofDigitChars_cons, hlength]
        -- The same first digit counts for the same on both sides.
        simp only [compare, compareOfLessAndEq, Nat.add_lt_add_iff_left, Nat.add_left_cancel_iff]
      · have hgreater := ofDigitChars_cons_lt hy.2 hy.1 hcd hlength.symm
        rw [Nat.compare_eq_gt.mpr hcd, Nat.compare_eq_gt.mpr hgreater]
        rfl

/-- Without leading zeros, the longer number is the greater. -/
theorem ofDigitChars_lt_of_length_lt {xs ys : Text} (hx : ∀ c ∈ xs, c.isDigit)
    (hy : ∀ c ∈ ys, c.isDigit) (hzero : ∀ c ∈ ys.head?, c ≠ '0') (h : xs.length < ys.length) :
    Nat.ofDigitChars 10 xs 0 < Nat.ofDigitChars 10 ys 0 := by
  cases ys with
  | nil => exact absurd h (by simp)
  | cons d ys =>
    calc
      Nat.ofDigitChars 10 xs 0 < 10 ^ xs.length := ofDigitChars_lt hx
      _ ≤ 10 ^ ys.length := Nat.pow_le_pow_right (by decide) (Nat.le_of_lt_succ h)
      _ ≤ Nat.ofDigitChars 10 (d :: ys) 0 :=
        le_ofDigitChars ys (hy d List.mem_cons_self) (hzero d rfl)

/-- Comparing lengths, and then texts, is comparing numbers, if there are no leading zeros. -/
theorem compare_length_then_dictionaryOrder {xs ys : Text} (hx : ∀ c ∈ xs, c.isDigit)
    (hy : ∀ c ∈ ys, c.isDigit) (hxzero : ∀ c ∈ xs.head?, c ≠ '0')
    (hyzero : ∀ c ∈ ys.head?, c ≠ '0') :
    (compare xs.length ys.length).then (dictionaryOrder xs ys) =
      compare (Nat.ofDigitChars 10 xs 0) (Nat.ofDigitChars 10 ys 0) := by
  rcases Nat.lt_trichotomy xs.length ys.length with h | h | h
  · have hless := ofDigitChars_lt_of_length_lt hx hy hyzero h
    rw [Nat.compare_eq_lt.mpr h, Nat.compare_eq_lt.mpr hless]
    rfl
  · rw [Nat.compare_eq_eq.mpr h, Ordering.eq_then, dictionaryOrder_eq_compare hx hy h]
  · have hgreater := ofDigitChars_lt_of_length_lt hy hx hxzero h
    rw [Nat.compare_eq_gt.mpr h, Nat.compare_eq_gt.mpr hgreater]
    rfl

/-! ### Tokens as bytes -/

/-- Texts in the order of their UTF-8 bytes. -/
def byteOrder (t t' : Text) : Ordering :=
  List.compareLex compare t.toUtf8.data.toList t'.toUtf8.data.toList

/-- A character below 128 is one byte. -/
theorem toUtf8_of_ascii {t : Text} (h : ∀ c ∈ t, c.toNat < 128) :
    t.toUtf8.data.toList = t.map fun c => UInt8.ofNat c.toNat := by
  have hbytes : t.toUtf8.data.toList = t.flatMap String.utf8EncodeChar := by
    show t.utf8Encode.data.toList = _
    simp [List.utf8Encode]
  have hchar : ∀ c ∈ t, String.utf8EncodeChar c = [UInt8.ofNat c.toNat] := by
    intro c hc
    have hle : c.val.toNat ≤ 127 := Nat.le_of_lt_succ (h c hc)
    simp only [String.utf8EncodeChar, hle, if_true]
    rfl
  rw [hbytes, List.flatMap_congr hchar, ← List.map_eq_flatMap]

/-- A character of the first 128 is compared as its byte is. -/
theorem compare_byte {c d : Char} (hc : c.toNat < 128) (hd : d.toNat < 128) :
    compare (UInt8.ofNat c.toNat) (UInt8.ofNat d.toNat) = compare c d := by
  have hbyte : ∀ {e : Char}, e.toNat < 128 → (UInt8.ofNat e.toNat).toNat = e.toNat := by
    intro e he
    rw [UInt8.toNat_ofNat']
    omega
  rw [compare_eq_compare_toNat]
  show compareOfLessAndEq _ _ = compareOfLessAndEq _ _
  simp only [compareOfLessAndEq, UInt8.lt_iff_toNat_lt, ← UInt8.toNat_inj, hbyte hc, hbyte hd]

/-- Where each character is one byte, texts are ordered by bytes as they are by characters. -/
theorem byteOrder_of_ascii {t t' : Text} (h : ∀ c ∈ t, c.toNat < 128)
    (h' : ∀ c ∈ t', c.toNat < 128) : byteOrder t t' = dictionaryOrder t t' := by
  rw [byteOrder, toUtf8_of_ascii h, toUtf8_of_ascii h', dictionaryOrder]
  induction t generalizing t' with
  | nil => cases t' <;> rfl
  | cons c t ih =>
    cases t' with
    | nil => rfl
    | cons d t' =>
      rw [List.forall_mem_cons] at h h'
      rw [List.map_cons, List.map_cons, List.compareLex_cons_cons, List.compareLex_cons_cons,
        compare_byte h.1 h'.1, ih h.2 h'.2]

/-- The characters of a token are among the first 128. -/
theorem toNat_lt_of_mem_token {p : Placeholder} {c : Char} (h : c ∈ p.token) : c.toNat < 128 := by
  rcases List.mem_cons.mp h with rfl | h
  · decide
  · have hcode := Char.isDigit_iff_toNat.mp (p.isDigit_of_mem h)
    have hnine : '9'.toNat = 57 := rfl
    omega

/-- Tokens are ordered by bytes as they are by characters. -/
theorem byteOrder_token (p q : Placeholder) :
    byteOrder p.token q.token = dictionaryOrder p.token q.token :=
  byteOrder_of_ascii (fun _ => toNat_lt_of_mem_token) fun _ => toNat_lt_of_mem_token

/-! ### The comparison of placeholders

Leading zeros make different tokens with the same number. The tokens themselves are compared then,
so no two placeholders are equal in this order. -/

/-- The number that names a placeholder. -/
def number (p : Placeholder) : Nat := Nat.ofDigitChars 10 p.digits 0

/-- Placeholders are compared by their numbers, and by the bytes of their tokens where these are the
same. -/
theorem numericCompare_eq (p q : Placeholder) :
    p.numericCompare q = (compare (number p) (number q)).then (byteOrder p.token q.token) := by
  -- Digits without leading zeros are compared by how many they are and then one by one.
  have hdigits : ∀ (r : Placeholder), ∀ c ∈ r.significantDigits, c.isDigit := fun r c hc =>
    r.isDigit_of_mem ((List.dropWhile_sublist _).subset hc)
  have hzero : ∀ (r : Placeholder), ∀ c ∈ r.significantDigits.head?, c ≠ '0' := by
    intro r c hc
    have hhead := List.head?_dropWhile_not (· == '0') r.digits
    rw [← Placeholder.significantDigits, Option.mem_def.mp hc] at hhead
    simpa using hhead
  rw [Placeholder.numericCompare, ← Ordering.then_assoc,
    compare_length_then_dictionaryOrder (hdigits p) (hdigits q) (hzero p) (hzero q),
    Placeholder.significantDigits, Placeholder.significantDigits, ofDigitChars_dropWhile,
    ofDigitChars_dropWhile, byteOrder_token]
  rfl

/-- The comparison is the lexicographic one of numbers and tokens. -/
theorem numericCompare_eq_compareLex :
    Placeholder.numericCompare =
      compareLex (compareOn number) (compareOn Placeholder.token) := by
  funext p q
  rw [numericCompare_eq, byteOrder_token]
  rfl

/-- The comparison is that of the numbers and tokens, so it is transitive as they are. -/
instance transCmp_numericCompare : Std.TransCmp Placeholder.numericCompare := by
  rw [numericCompare_eq_compareLex]
  infer_instance

/-- A placeholder is told by its token. -/
theorem token_injective : Function.Injective Placeholder.token := by
  intro p q h
  have hread := congrArg Placeholder.ofToken? h
  rw [Placeholder.ofToken?_token, Placeholder.ofToken?_token] at hread
  exact Option.some.inj hread

/-- No two placeholders are equal in the order, since their tokens would be the same. -/
instance lawfulEqCmp_numericCompare : Std.LawfulEqCmp Placeholder.numericCompare where
  eq_of_compare {p q} h := by
    rw [Placeholder.numericCompare, Ordering.then_eq_eq, Ordering.then_eq_eq] at h
    have htokens : List.compareLex compare p.token q.token = .eq := h.2.2
    exact token_injective (Std.LawfulEqCmp.eq_of_compare htokens)

/-! ### The sorted list

The scan lists each placeholder once. A strictly ascending list is settled by its members, whatever
the scan has met first. -/

/-- The placeholders of a template in the order of their numbers: they ascend. -/
theorem pairwise_placeholders_numeric (template : Template) :
    (template.placeholders .numeric).Pairwise fun p q => p.numericCompare q = .lt := by
  have hsorted : (template.placeholders .numeric).Pairwise fun p q =>
      (p.numericCompare q).isLE = true := by
    apply List.pairwise_mergeSort
    · intro p q r hpq hqr
      exact Std.TransCmp.isLE_trans hpq hqr
    · intro p q
      have hswap : q.numericCompare p = (p.numericCompare q).swap := Std.OrientedCmp.eq_swap
      rw [hswap]
      cases p.numericCompare q <;> rfl
  have hnodup : (template.placeholders .numeric).Nodup :=
    (perm_arrange .numeric _).nodup_iff.mpr (nodup_eraseDups _)
  refine (hsorted.and hnodup).imp fun {p q} h => ?_
  obtain ⟨hle, hne⟩ := h
  -- They are all different, so none is equal to the next.
  cases hcompare : p.numericCompare q with
  | lt => rfl
  | eq => exact absurd (Std.LawfulEqCmp.eq_of_compare hcompare) hne
  | gt => rw [hcompare] at hle; exact absurd hle (by decide)

/-- Placeholders that ascend are determined by which they are. -/
theorem eq_of_pairwise_numericCompare {ps qs : List Placeholder}
    (hps : ps.Pairwise fun p q => p.numericCompare q = .lt)
    (hqs : qs.Pairwise fun p q => p.numericCompare q = .lt) (h : ∀ p, p ∈ ps ↔ p ∈ qs) :
    ps = qs := by
  have hne : ∀ {p q : Placeholder}, p.numericCompare q = .lt → p ≠ q := by
    rintro p q hlt rfl
    have hself : p.numericCompare p = .eq := Std.ReflCmp.compare_self
    exact nomatch hlt.symm.trans hself
  have hperm : ps.Perm qs := (List.perm_ext_iff_of_nodup (hps.imp hne) (hqs.imp hne)).mpr h
  refine List.Perm.eq_of_pairwise (fun p q _ _ hpq hqp => ?_) hps hqs hperm
  have hswap : p.numericCompare q = (q.numericCompare p).swap := Std.OrientedCmp.eq_swap
  rw [hpq, hqp] at hswap
  exact nomatch hswap

/-- Placeholders are ordered by their numbers and, where these are the same, by the bytes of their
tokens. This is a total order, and no two different placeholders are equal in it. The placeholders
of a template, sorted by it, are those that are seen in it, and they ascend. They are the same for
any two templates in which the same placeholders occur. -/
theorem numericCompare_orders_placeholders :
    (∀ p q : Placeholder, p.numericCompare q =
      (compare (number p) (number q)).then (byteOrder p.token q.token)) ∧
    (∀ p q : Placeholder, q.numericCompare p = (p.numericCompare q).swap) ∧
    (∀ p q r : Placeholder, (p.numericCompare q).isLE → (q.numericCompare r).isLE →
      (p.numericCompare r).isLE) ∧
    (∀ p q : Placeholder, p.numericCompare q = .eq ↔ p.token = q.token) ∧
    (∀ t : Text,
      ((Template.ofText t).placeholders .numeric).Perm
        ((Template.ofText t).placeholders .firstSeen) ∧
      ((Template.ofText t).placeholders .numeric).Pairwise fun p q =>
        p.numericCompare q = .lt) ∧
    (∀ template other : Template,
      (∀ p : Placeholder, (∃ line ∈ template.lines, p.occursIn line) ↔
        ∃ line ∈ other.lines, p.occursIn line) →
      template.placeholders .numeric = other.placeholders .numeric) := by
  refine ⟨numericCompare_eq, fun p q => Std.OrientedCmp.eq_swap, fun p q r hpq hqr =>
    Std.TransCmp.isLE_trans hpq hqr, fun p q => ?_, fun t => ⟨?_, ?_⟩, fun template other h => ?_⟩
  · have hequal : p.numericCompare q = .eq ↔ p = q := Std.LawfulEqCmp.compare_eq_iff_eq
    rw [hequal, token_injective.eq_iff]
  · exact perm_arrange .numeric _
  · exact pairwise_placeholders_numeric _
  · apply eq_of_pairwise_numericCompare (pairwise_placeholders_numeric template)
      (pairwise_placeholders_numeric other)
    intro p
    rw [mem_placeholders_iff, mem_placeholders_iff, h p]

/-- A text with six placeholders, of which two have the number ten and one is zero. -/
def shuffledText : Text := "mov %10, %2\n; %18446744073709551616 %010\nadd %1 %000\n".toList

/-- A text with the same placeholders on other lines, some of them twice. -/
def regroupedText : Text := "%1%010;%000\n%2%18446744073709551616%10%2\n%10".toList

/-- The placeholders of both texts ascend from zero; of the two tens, the one with the leading zero
comes first. -/
theorem numericCompare_orders_placeholders_shuffledText :
    (∃ two zeroTen ten : Placeholder, two.token = "%2".toList ∧ zeroTen.token = "%010".toList ∧
      ten.token = "%10".toList ∧ (two.numericCompare zeroTen).isLE ∧
      (zeroTen.numericCompare ten).isLE ∧ (two.numericCompare ten).isLE) ∧
    ((Template.ofText shuffledText).placeholders .numeric).map Placeholder.token =
      ["%000", "%1", "%2", "%010", "%10", "%18446744073709551616"].map String.toList ∧
    (Template.ofText regroupedText).placeholders .numeric =
      (Template.ofText shuffledText).placeholders .numeric := by
  obtain ⟨-, -, htrans, -, hsorted, hsame⟩ := numericCompare_orders_placeholders
  let two : Placeholder := ⟨"2".toList, by decide, by decide⟩
  let zeroTen : Placeholder := ⟨"010".toList, by decide, by decide⟩
  let ten : Placeholder := ⟨"10".toList, by decide, by decide⟩
  let listed : List Placeholder :=
    [⟨"000".toList, by decide, by decide⟩, ⟨"1".toList, by decide, by decide⟩, two, zeroTen, ten,
      ⟨"18446744073709551616".toList, by decide, by decide⟩]
  have hshuffled : ((Template.ofText shuffledText).placeholders .firstSeen).Perm listed := by
    decide +kernel
  have hregrouped : ((Template.ofText regroupedText).placeholders .firstSeen).Perm listed := by
    decide +kernel
  have hlisted : (Template.ofText shuffledText).placeholders .numeric = listed := by
    apply eq_of_pairwise_numericCompare (hsorted shuffledText).2 (by decide +kernel)
    intro p
    rw [(hsorted shuffledText).1.mem_iff, hshuffled.mem_iff]
  refine ⟨⟨two, zeroTen, ten, rfl, rfl, rfl, by decide +kernel, by decide +kernel,
    htrans two zeroTen ten (by decide +kernel) (by decide +kernel)⟩, ?_, ?_⟩
  · rw [hlisted]
    decide
  · apply hsame
    intro p
    have hseen : ∀ t : Text, (∃ line ∈ (Template.ofText t).lines, p.occursIn line) ↔
        p ∈ (Template.ofText t).placeholders .firstSeen := fun t => mem_placeholders_iff.symm
    rw [hseen, hseen, hregrouped.mem_iff, hshuffled.mem_iff]

end AsmVariants.Proofs
