import Mathlib.Data.List.TakeWhile
import TemplateCompiler.Proofs.Number.Nearest
import TemplateCompiler.Script.Token
/-!
# Numeric literals

`NumericLiteral` derives what may be written as a number, with the exact value of it: decimals with a fraction and an
exponent, and whole numbers in other bases, with underscores between their digits. What is read as a number is such a
literal, and its text is that of the rounded value (`isNumberIn_number?`).
-/

namespace TemplateCompiler.Script

open TemplateCompiler.Text TemplateCompiler.Number TemplateCompiler.Number.Binary64

/-! ## The grammar -/

/-- Digits as they are written, with single underscores between them, and without the underscores. -/
inductive Separated (isDigit : Char → Bool) : List Char → List Char → Prop where
  | single {c : Char} (hc : isDigit c = true) : Separated isDigit [c] [c]
  | digit {c : Char} {cs digits : List Char} (hc : isDigit c = true) (h : Separated isDigit cs digits) :
      Separated isDigit (c :: cs) (c :: digits)
  | underscore {c : Char} {cs digits : List Char} (hc : isDigit c = true) (h : Separated isDigit cs digits) :
      Separated isDigit (c :: '_' :: cs) (c :: digits)

/-- What may stand behind the digits before the point: nothing, or a point and the digits behind it. -/
inductive Fraction : List Char → List Char → Prop where
  | none : Fraction [] []
  | point : Fraction ['.'] []
  | digits {cs digits : List Char} (h : Separated Char.isDigit cs digits) : Fraction ('.' :: cs) digits

/-- The power of ten at the end of a decimal. -/
inductive Exponent : List Char → ℤ → Prop where
  | none : Exponent [] 0
  | power {letter : Char} {sign cs digits : List Char} {factor : ℤ} (hletter : letter = 'e' ∨ letter = 'E')
      (hsign : (sign, factor) ∈ [([], 1), (['+'], 1), (['-'], -1)]) (h : Separated Char.isDigit cs digits) :
      Exponent (letter :: (sign ++ cs)) (factor * valueIn 10 digits)

/-- A number as it may be written, and its value. -/
inductive NumericLiteral : List Char → ℚ → Prop where
  /-- No digit follows a zero at the front, unless one of the digits is no octal digit. -/
  | decimal {whole digits fraction more exponent : List Char} {power : ℤ} (hwhole : Separated Char.isDigit whole digits)
      (hzero : whole.head? = some '0' → whole = ['0'] ∨ whole = digits ∧ ∃ c ∈ digits, isDigitIn 8 c = false)
      (hfraction : Fraction fraction more) (hexponent : Exponent exponent power) :
      NumericLiteral (whole ++ (fraction ++ exponent)) (valueIn 10 (digits ++ more) * 10 ^ (power - more.length))
  | fraction {cs digits exponent : List Char} {power : ℤ} (h : Separated Char.isDigit cs digits)
      (hexponent : Exponent exponent power) :
      NumericLiteral ('.' :: (cs ++ exponent)) (valueIn 10 digits * 10 ^ (power - digits.length))
  | radix {base : ℕ} {letter : Char} {cs digits : List Char}
      (hbase : (base, letter) ∈ [(16, 'x'), (16, 'X'), (8, 'o'), (8, 'O'), (2, 'b'), (2, 'B')])
      (h : Separated (isDigitIn base) cs digits) : NumericLiteral ('0' :: letter :: cs) (valueIn base digits)
  /-- An octal number that is told by nothing but the zero before its digits. -/
  | octal {digits : List Char} (hne : digits ≠ []) (h : ∀ c ∈ digits, isDigitIn 8 c = true) :
      NumericLiteral ('0' :: digits) (valueIn 8 ('0' :: digits))

/-- The text of a number is that of the magnitude its value is rounded to. -/
def IsKeptAs (literal : List Char) (text : String) : Prop :=
  ∃ (q : ℚ) (b : Binary64), NumericLiteral literal q ∧ IsResult q b ∧ text = b.text

/-! ## Runs of digits -/

/-- A run takes digits with underscores between them, unless an underscore stands behind the last digit. The first
underscore may also stand behind a digit before the run. -/
theorem digitRun_spec (isDigit : Char → Bool) (inside : Bool) (cs : List Char) :
    ∃ read, cs = read ++ (digitRun isDigit inside cs).2.2 ∧
      ((digitRun isDigit inside cs).2.1 = false →
        (digitRun isDigit inside cs).1 = [] ∧ read = [] ∨ Separated isDigit read (digitRun isDigit inside cs).1 ∨
          inside = true ∧ ∃ more, read = '_' :: more ∧ Separated isDigit more (digitRun isDigit inside cs).1) := by
  induction cs generalizing inside with
  | nil => exact ⟨[], rfl, fun _ => .inl ⟨rfl, rfl⟩⟩
  | cons c rest ih =>
    unfold digitRun
    split_ifs with hc hunderscore hdigit
    · obtain ⟨read, hread, hspec⟩ := ih true
      refine ⟨c :: read, congrArg (c :: ·) hread, fun hstray => .inr (.inl ?_)⟩
      rcases hspec hstray with ⟨hdigits, rfl⟩ | hseparated | ⟨-, more, rfl, hseparated⟩
      · dsimp only
        rw [hdigits]
        exact .single hc
      · exact .digit hc hseparated
      · exact .underscore hc hseparated
    · obtain ⟨hinside, hunderscore⟩ := Bool.and_eq_true_iff.1 hunderscore
      obtain rfl := beq_iff_eq.1 hunderscore
      obtain ⟨read, hread, hspec⟩ := ih false
      refine ⟨'_' :: read, congrArg ('_' :: ·) hread, fun hstray => .inr (.inr ⟨hinside, read, rfl, ?_⟩)⟩
      rcases hspec hstray with ⟨hdigits, rfl⟩ | hseparated | ⟨hfalse, -⟩
      · cases rest with
        | nil => cases hdigit
        | cons d rest =>
          rw [List.head?_cons, Option.any_some] at hdigit
          simp [digitRun, hdigit] at hdigits
      · exact hseparated
      · cases hfalse
    · obtain rfl := beq_iff_eq.1 (Bool.and_eq_true_iff.1 hunderscore).2
      exact ⟨['_'], rfl, fun hstray => by cases hstray⟩
    · exact ⟨[], rfl, fun _ => .inl ⟨rfl, rfl⟩⟩

theorem exists_of_digitRun {isDigit : Char → Bool} {cs digits after : List Char} {stray : Bool}
    (h : digitRun isDigit false cs = (digits, stray, after)) :
    ∃ read, cs = read ++ after ∧ (stray = false → digits = [] ∧ read = [] ∨ Separated isDigit read digits) := by
  obtain ⟨read, hread, hspec⟩ := digitRun_spec isDigit false cs
  rw [h] at hread hspec
  refine ⟨read, hread, fun hstray => (hspec hstray).imp_right fun h => h.resolve_right ?_⟩
  rintro ⟨hfalse, -⟩
  cases hfalse

/-! ## Parts of decimals -/

/-- The digits of an exponent behind its sign. -/
theorem exists_of_signedDigits {letter : Char} (hletter : letter = 'e' ∨ letter = 'E') (sign : List Char) (negative : Bool)
    (hsign : (sign, (if negative then -1 else 1 : ℤ)) ∈ [([], 1), (['+'], 1), (['-'], -1)]) {cs after : List Char}
    {power : ℤ}
    (h : (match digitRun Char.isDigit false cs with
      | ([], _) => none
      | (_, true, _) => none
      | (digits, false, after) =>
        let n : ℤ := valueIn 10 digits
        some (if negative then -n else n, after)) = some (power, after)) :
    ∃ exponent, letter :: (sign ++ cs) = exponent ++ after ∧ Exponent exponent power := by
  split at h
  · cases h
  · cases h
  · rename_i digits after' hne heq
    obtain ⟨read, hread, hspec⟩ := exists_of_digitRun heq
    obtain ⟨hpower, rfl⟩ := Prod.mk.inj (Option.some.inj h)
    have hseparated := (hspec rfl).resolve_left fun hnil => hne hnil.1
    have hexponent := Exponent.power hletter hsign hseparated
    refine ⟨letter :: (sign ++ read), by rw [hread]; simp, ?_⟩
    rw [← hpower]
    cases negative <;> simpa using hexponent

theorem exists_of_exponentDigits? {cs after : List Char} {power : ℤ} (h : exponentDigits? cs = some (power, after))
    {letter : Char} (hletter : letter = 'e' ∨ letter = 'E') :
    ∃ exponent, letter :: cs = exponent ++ after ∧ Exponent exponent power := by
  unfold exponentDigits? at h
  split at h
  rename_i negative cs' heq
  split at heq
  · cases heq
    exact exists_of_signedDigits hletter ['-'] true (by simp) h
  · cases heq
    exact exists_of_signedDigits hletter ['+'] false (by simp) h
  · cases heq
    exact exists_of_signedDigits hletter [] false (by simp) h

theorem exists_of_exponent? {cs after : List Char} {power : ℤ} (h : exponent? cs = some (power, after)) :
    ∃ exponent, cs = exponent ++ after ∧ Exponent exponent power := by
  unfold exponent? at h
  split at h
  · exact exists_of_exponentDigits? h (.inl rfl)
  · exact exists_of_exponentDigits? h (.inr rfl)
  · cases h
    exact ⟨[], rfl, .none⟩

theorem of_ended? {written found : Written} (h : written.ended? = some found) : found = written := by
  unfold Written.ended? at h
  split at h
  · exact (Option.some.inj h).symm
  · cases h

/-- What follows the digits before the point is a fraction and an exponent. -/
theorem exists_of_decimalTail? {whole cs : List Char} {found : Written} (h : decimalTail? whole cs = some found) :
    ∃ fraction more exponent power, cs = fraction ++ (exponent ++ found.rest) ∧ Fraction fraction more ∧
      Exponent exponent power ∧ found.token = decimal whole more power := by
  unfold decimalTail? at h
  split at h
  · rename_i rest
    split at h
    · cases h
    · rename_i more rest' heq
      obtain ⟨read, hread, hspec⟩ := exists_of_digitRun heq
      obtain ⟨⟨power, after⟩, hpower, h⟩ := Option.bind_eq_some_iff.1 h
      obtain rfl := of_ended? h
      obtain ⟨exponent, rfl, hexponent⟩ := exists_of_exponent? hpower
      refine ⟨'.' :: read, more, exponent, power, by rw [hread]; rfl, ?_, hexponent, rfl⟩
      rcases hspec rfl with ⟨rfl, rfl⟩ | hseparated
      · exact .point
      · exact .digits hseparated
  · obtain ⟨⟨power, after⟩, hpower, h⟩ := Option.bind_eq_some_iff.1 h
    obtain rfl := of_ended? h
    obtain ⟨exponent, rfl, hexponent⟩ := exists_of_exponent? hpower
    exact ⟨[], [], exponent, power, rfl, .none, hexponent, rfl⟩

/-! ## Numbers -/

/-- A number has been read from the front of a text. -/
def IsNumberIn (cs : List Char) (found : Written) : Prop :=
  ∃ literal, cs = literal ++ found.rest ∧
    (found.flawed = false → found.token = .bigInteger ∨ ∃ text, found.token = .number text ∧ IsKeptAs literal text)

theorem isKeptAs_decimal {whole digits fraction more exponent : List Char} {power : ℤ}
    (hwhole : Separated Char.isDigit whole digits)
    (hzero : whole.head? = some '0' → whole = ['0'] ∨ whole = digits ∧ ∃ c ∈ digits, isDigitIn 8 c = false)
    (hfraction : Fraction fraction more) (hexponent : Exponent exponent power) :
    ∃ text, decimal digits more power = .number text ∧ IsKeptAs (whole ++ (fraction ++ exponent)) text :=
  ⟨_, rfl, _, _, .decimal hwhole hzero hfraction hexponent, isResult_nearestDecimal _ _, rfl⟩

theorem isNumberIn_decimalTail? {whole digits cs : List Char} {found : Written}
    (hwhole : Separated Char.isDigit whole digits)
    (hzero : whole.head? = some '0' → whole = ['0'] ∨ whole = digits ∧ ∃ c ∈ digits, isDigitIn 8 c = false)
    (h : decimalTail? digits cs = some found) : IsNumberIn (whole ++ cs) found := by
  obtain ⟨fraction, more, exponent, power, rfl, hfraction, hexponent, htoken⟩ := exists_of_decimalTail? h
  obtain ⟨text, htext, hkept⟩ := isKeptAs_decimal hwhole hzero hfraction hexponent
  exact ⟨_, by simp, fun _ => .inr ⟨text, htoken.trans htext, hkept⟩⟩

theorem isNumberIn_zeroPower? {whole digits cs : List Char} {letter : Char} {found : Written}
    (hwhole : Separated Char.isDigit whole digits)
    (hzero : whole.head? = some '0' → whole = ['0'] ∨ whole = digits ∧ ∃ c ∈ digits, isDigitIn 8 c = false)
    (hletter : letter = 'e' ∨ letter = 'E') (h : zeroPower? digits cs = some found) :
    IsNumberIn (whole ++ letter :: cs) found := by
  obtain ⟨⟨power, after⟩, hpower, h⟩ := Option.bind_eq_some_iff.1 h
  cases h
  obtain ⟨exponent, heq, hexponent⟩ := exists_of_exponentDigits? hpower hletter
  obtain ⟨text, htext, hkept⟩ := isKeptAs_decimal hwhole hzero .none hexponent
  exact ⟨_, by rw [heq]; simp, fun _ => .inr ⟨text, htext, hkept⟩⟩

theorem isNumberIn_radixNumber? {base : ℕ} {letter : Char} {cs : List Char} {found : Written}
    (hbase : (base, letter) ∈ [(16, 'x'), (16, 'X'), (8, 'o'), (8, 'O'), (2, 'b'), (2, 'B')])
    (h : radixNumber? base cs = some found) : IsNumberIn ('0' :: letter :: cs) found := by
  unfold radixNumber? at h
  split at h
  · cases h
  · cases h
  · rename_i digits after hne heq
    obtain ⟨read, rfl, -⟩ := exists_of_digitRun heq
    obtain rfl := of_ended? h
    exact ⟨'0' :: letter :: (read ++ ['n']), by simp, fun _ => .inl rfl⟩
  · rename_i digits after hne hn heq
    obtain ⟨read, rfl, hspec⟩ := exists_of_digitRun heq
    obtain rfl := of_ended? h
    have hseparated := (hspec rfl).resolve_left fun hnil => hne hnil.1
    have hresult := isResult_nearest (valueIn base digits) one_pos
    rw [Nat.cast_one, div_one] at hresult
    exact ⟨_, rfl, fun _ => .inr ⟨_, rfl, _, _, .radix hbase hseparated, hresult, rfl⟩⟩

/-- Digits without underscores. -/
theorem separated_of_forall {isDigit : Char → Bool} {digits : List Char} (hne : digits ≠ [])
    (h : ∀ c ∈ digits, isDigit c = true) : Separated isDigit digits digits := by
  induction digits with
  | nil => exact absurd rfl hne
  | cons c digits ih =>
    obtain ⟨hc, hdigits⟩ := List.forall_mem_cons.1 h
    cases digits with
    | nil => exact .single hc
    | cons d digits => exact .digit hc (ih (by simp) hdigits)

theorem isNumberIn_zeroNumber? {c : Char} {rest : List Char} {found : Written} (hc : c.isDigit = true)
    (h : zeroNumber? ('0' :: c :: rest) = some found) : IsNumberIn ('0' :: c :: rest) found := by
  have hcut := List.takeWhile_append_dropWhile (p := Char.isDigit) (l := '0' :: c :: rest)
  have hdigits : ∀ d ∈ ('0' :: c :: rest).takeWhile Char.isDigit, d.isDigit = true := fun d hd => List.mem_takeWhile_imp hd
  obtain ⟨more, hmore⟩ : ∃ more, ('0' :: c :: rest).takeWhile Char.isDigit = '0' :: c :: more :=
    ⟨rest.takeWhile Char.isDigit, by simp [hc]⟩
  unfold zeroNumber? at h
  dsimp only at h
  rw [hmore] at hdigits h hcut
  generalize ('0' :: c :: rest).dropWhile Char.isDigit = behind at h hcut
  rw [← hcut]
  split at h
  · rename_i hoctal
    obtain rfl := of_ended? h
    have hresult := isResult_nearest (valueIn 8 ('0' :: c :: more)) one_pos
    rw [Nat.cast_one, div_one] at hresult
    have hall : ∀ d ∈ c :: more, isDigitIn 8 d = true := (List.forall_mem_cons.1 (List.all_eq_true.1 hoctal)).2
    exact ⟨_, rfl, fun _ => .inr ⟨_, rfl, _, _, .octal (by simp) hall, hresult, rfl⟩⟩
  · rename_i hoctal
    have hseparated := separated_of_forall (by simp) hdigits
    have hzero : ('0' :: c :: more).head? = some '0' →
        '0' :: c :: more = ['0'] ∨ '0' :: c :: more = '0' :: c :: more ∧ ∃ d ∈ '0' :: c :: more, isDigitIn 8 d = false := by
      obtain ⟨d, hd, hnot⟩ := List.all_eq_false.1 (Bool.eq_false_iff.2 hoctal)
      exact fun _ => .inr ⟨rfl, d, hd, Bool.eq_false_iff.2 hnot⟩
    split at h
    · exact isNumberIn_decimalTail? hseparated hzero h
    · exact isNumberIn_zeroPower? hseparated hzero (.inl rfl) h
    · obtain rfl := of_ended? h
      obtain ⟨text, htext, hkept⟩ := isKeptAs_decimal hseparated hzero .none .none
      exact ⟨_, by simp, fun _ => .inr ⟨text, htext, hkept⟩⟩

/-- A fraction without digits before its point. -/
theorem isNumberIn_fraction {cs : List Char} {found : Written} (hdigit : cs.head?.any Char.isDigit = true)
    (h : decimalTail? [] ('.' :: cs) = some found) : IsNumberIn ('.' :: cs) found := by
  simp only [decimalTail?] at h
  split at h
  · cases h
  · rename_i more after heq
    obtain ⟨read, rfl, hspec⟩ := exists_of_digitRun heq
    obtain ⟨⟨power, after⟩, hpower, h⟩ := Option.bind_eq_some_iff.1 h
    obtain rfl := of_ended? h
    obtain ⟨exponent, rfl, hexponent⟩ := exists_of_exponent? hpower
    have hseparated : Separated Char.isDigit read more := by
      refine (hspec rfl).resolve_left ?_
      rintro ⟨rfl, rfl⟩
      cases hcs : exponent ++ after with
      | nil => simp [hcs] at hdigit
      | cons c cs =>
        rw [List.nil_append, hcs, List.head?_cons, Option.any_some] at hdigit
        simp [hcs, digitRun, hdigit] at heq
    refine ⟨'.' :: (read ++ exponent), by simp, fun _ => .inr ⟨_, rfl, _, _, .fraction hseparated hexponent, ?_, rfl⟩⟩
    exact isResult_nearestDecimal _ _

/-- What is read as a number is a numeric literal, and its text is that of the rounded value. -/
theorem isNumberIn_number? {cs : List Char} {found : Written} (h : number? cs = some found) : IsNumberIn cs found := by
  have hzero : Separated Char.isDigit ['0'] ['0'] := .single rfl
  unfold number? at h
  split at h
  · rename_i c rest
    split_ifs at h with hhex hoctal hbinary hpower hdigit hbig
    · rw [Bool.or_eq_true, decide_eq_true_eq, decide_eq_true_eq] at hhex
      exact isNumberIn_radixNumber? (by rcases hhex with rfl | rfl <;> simp) h
    · rw [Bool.or_eq_true, decide_eq_true_eq, decide_eq_true_eq] at hoctal
      exact isNumberIn_radixNumber? (by rcases hoctal with rfl | rfl <;> simp) h
    · rw [Bool.or_eq_true, decide_eq_true_eq, decide_eq_true_eq] at hbinary
      exact isNumberIn_radixNumber? (by rcases hbinary with rfl | rfl <;> simp) h
    · rw [Bool.or_eq_true, decide_eq_true_eq, decide_eq_true_eq] at hpower
      exact isNumberIn_zeroPower? hzero (fun _ => .inl rfl) hpower h
    · exact isNumberIn_zeroNumber? hdigit h
    · obtain rfl := of_ended? h
      exact ⟨['0', c], rfl, fun _ => .inl rfl⟩
    · exact isNumberIn_decimalTail? hzero (fun _ => .inl rfl) h
  · rename_i rest
    split_ifs at h with hdigit
    exact isNumberIn_fraction hdigit h
  · rename_i hzero' hpoint
    split at h
    · cases h
    · rename_i digits flawed after hne heq
      obtain ⟨read, rfl, -⟩ := exists_of_digitRun heq
      obtain rfl := of_ended? h
      exact ⟨read ++ ['n'], by simp, fun _ => .inl rfl⟩
    · rename_i digits after hne hn heq
      obtain ⟨read, rfl, hspec⟩ := exists_of_digitRun heq
      have hseparated := (hspec rfl).resolve_left fun hnil => hne hnil.1
      refine isNumberIn_decimalTail? hseparated (fun hhead => .inl ?_) h
      obtain ⟨more, rfl⟩ := List.head?_eq_some_iff.1 hhead
      cases more with
      | nil => rfl
      | cons c more => exact absurd rfl (hzero' c (more ++ after))
    · rename_i digits after hne hn heq
      obtain ⟨read, rfl, -⟩ := exists_of_digitRun heq
      obtain rfl := of_ended? h
      exact ⟨read, rfl, fun hflawed => by cases hflawed⟩

/-! ## Numbers in a text -/

/-- The texts are those of numeric literals that stand in a text one behind another. -/
inductive HoldsNumbers : List Char → List String → Prop where
  | nil (cs : List Char) : HoldsNumbers cs []
  | cons (gap : List Char) {literal rest : List Char} {text : String} {texts : List String} (h : IsKeptAs literal text)
      (hrest : HoldsNumbers rest texts) : HoldsNumbers (gap ++ (literal ++ rest)) (text :: texts)

theorem HoldsNumbers.behind {cs : List Char} {texts : List String} (h : HoldsNumbers cs texts) (before : List Char) :
    HoldsNumbers (before ++ cs) texts := by
  cases h with
  | nil cs => exact .nil _
  | cons gap h hrest =>
    rw [← List.append_assoc]
    exact .cons _ h hrest

theorem HoldsNumbers.append {cs cs' : List Char} {texts texts' : List String} (h : HoldsNumbers cs texts)
    (h' : HoldsNumbers cs' texts') : HoldsNumbers (cs ++ cs') (texts ++ texts') := by
  induction h with
  | nil cs => exact h'.behind cs
  | cons gap h hrest ih =>
    rw [List.append_assoc, List.append_assoc]
    exact .cons gap h ih

theorem HoldsNumbers.before {cs : List Char} {texts : List String} (h : HoldsNumbers cs texts) (behind : List Char) :
    HoldsNumbers (cs ++ behind) texts := by
  have happend := h.append (.nil behind)
  rwa [List.append_nil] at happend

theorem HoldsNumbers.single {literal : List Char} {text : String} (h : IsKeptAs literal text) :
    HoldsNumbers literal [text] := by
  have hcons := HoldsNumbers.cons [] h (.nil [])
  rwa [List.nil_append, List.append_nil] at hcons

theorem HoldsNumbers.exists_isKeptAs {cs : List Char} {texts : List String} (h : HoldsNumbers cs texts) :
    ∀ text ∈ texts, ∃ literal, IsKeptAs literal text := by
  induction h with
  | nil cs => simp
  | cons gap h hrest ih => exact List.forall_mem_cons.2 ⟨⟨_, h⟩, ih⟩

end TemplateCompiler.Script
