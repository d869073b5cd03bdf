import Mathlib.Data.List.TakeWhile
import TemplateCompiler.Proofs.Markup.WrittenTag
import TemplateCompiler.Proofs.Text.Blank
/-!
# Raw attributes of written ones

What the scan of the raw text of a tag makes of attributes as they are written. Where the two kinds of blanks agree,
it finds each attribute once. Behind a blank inside a value without quotes, which only this scan takes for one, it also
finds attributes that nobody has written (`WrittenAttribute.strays`).
-/

namespace TemplateCompiler.Markup

open TemplateCompiler.Text

/-! ## Splitting at a character -/

theorem drop_takeWhile_length (p : Char → Bool) (cs : List Char) :
    cs.drop (cs.takeWhile p).length = cs.dropWhile p := by
  induction cs with
  | nil => rfl
  | cons c cs ih =>
    by_cases hc : p c = true
    · simp [hc, ih]
    · simp [hc]

theorem takeWhile_append_stop {p : Char → Bool} {xs ys : List Char} (hx : ∀ c ∈ xs, p c = true)
    (hy : ∀ c, ys.head? = some c → p c = false) : (xs ++ ys).takeWhile p = xs := by
  rw [List.takeWhile_append_of_pos hx]
  cases ys with
  | nil => simp
  | cons c ys => simp [hy c rfl]

theorem dropWhile_append_stop {p : Char → Bool} {xs ys : List Char} (hx : ∀ c ∈ xs, p c = true)
    (hy : ∀ c, ys.head? = some c → p c = false) : (xs ++ ys).dropWhile p = ys := by
  rw [List.dropWhile_append_of_pos hx]
  cases ys with
  | nil => simp
  | cons c ys => simp [hy c rfl]

theorem head?_dropWhile_not {p : Char → Bool} {cs : List Char} {c : Char} (h : (cs.dropWhile p).head? = some c) :
    p c = false := by
  have hnot := List.head?_dropWhile_not p cs
  rw [h] at hnot
  exact hnot

/-! ## The scan -/

theorem rawAttributes_cons_not {c : Char} (h : isRawNameChar c = false) (offset : Nat) (rest : List Char) :
    rawAttributes offset (c :: rest) = rawAttributes (offset + c.utf8Size) rest := by
  conv => lhs; unfold rawAttributes
  rw [if_neg (by simp [h])]

theorem rawAttributes_skip {cs : List Char} (h : ∀ c ∈ cs, isRawNameChar c = false) (offset : Nat) (rest : List Char) :
    rawAttributes offset (cs ++ rest) = rawAttributes (offset + byteLength cs) rest := by
  induction cs generalizing offset with
  | nil => rfl
  | cons c cs ih =>
    rw [List.cons_append, rawAttributes_cons_not (h c (by simp)), ih (fun d hd => h d (by simp [hd])), byteLength_cons,
      Nat.add_assoc]

/-- The size of a raw value, with all from the name on, and the flags that it gives. -/
def rawSize (tail : List Char) : Nat × Bool × Bool :=
  match rawValue? tail with
  | some (size, quoted) => (size, true, quoted)
  | none => (0, false, false)

/-- A raw name is found where it stands, with the value behind it. -/
theorem rawAttributes_name {name tail : List Char} (hne : name ≠ []) (hname : ∀ c ∈ name, isRawNameChar c = true)
    (htail : ∀ c, tail.head? = some c → isRawNameChar c = false) (offset : Nat) :
    rawAttributes offset (name ++ tail) =
      ⟨String.ofList (name.map Char.toLower), (rawSize tail).2.1, (rawSize tail).2.2, offset⟩ ::
        rawAttributes (offset + byteLength name + byteLength (tail.take (rawSize tail).1))
          (tail.drop (rawSize tail).1) := by
  cases name with
  | nil => exact absurd rfl hne
  | cons c cs =>
    have hcs : (cs ++ tail).takeWhile isRawNameChar = cs :=
      takeWhile_append_stop (fun d hd => hname d (by simp [hd])) htail
    rw [List.cons_append]
    conv => lhs; unfold rawAttributes
    simp only [hname c (by simp), if_true, hcs, List.length_cons, Nat.add_sub_cancel, List.drop_left]
    unfold rawSize
    cases hvalue : rawValue? tail <;> simp

/-- What the scan finds lies in the text and is named as it stands there, in small letters. -/
theorem mem_rawAttributes {cs : List Char} {offset : Nat} {raw : RawAttribute} (h : raw ∈ rawAttributes offset cs) :
    ∃ front back, cs = front ++ back ∧ back ≠ [] ∧ raw.offset = offset + byteLength front ∧
      raw.name = String.ofList ((back.takeWhile isRawNameChar).map Char.toLower) := by
  induction hn : cs.length using Nat.strongRecOn generalizing cs offset with
  | _ n ih =>
  cases cs with
  | nil =>
    unfold rawAttributes at h
    cases h
  | cons c rest =>
    by_cases hc : isRawNameChar c = true
    · have hname : ∀ d ∈ c :: rest.takeWhile isRawNameChar, isRawNameChar d = true := by
        intro d hd
        rcases List.mem_cons.1 hd with rfl | hd
        · exact hc
        · exact of_mem_takeWhile hd
      have hsplit : c :: rest = (c :: rest.takeWhile isRawNameChar) ++ rest.dropWhile isRawNameChar := by
        simp [List.takeWhile_append_dropWhile]
      rw [hsplit, rawAttributes_name (by simp) hname fun d hd => head?_dropWhile_not hd] at h
      rcases List.mem_cons.1 h with rfl | h
      · exact ⟨[], c :: rest, rfl, by simp, rfl, by rw [List.takeWhile_cons_of_pos hc]⟩
      · generalize hsize : (rawSize (rest.dropWhile isRawNameChar)).1 = size at h
        have hlength : ((rest.dropWhile isRawNameChar).drop size).length < n := by
          have := (List.dropWhile_sublist (l := rest) isRawNameChar).length_le
          rw [← hn, List.length_drop, List.length_cons]
          omega
        obtain ⟨front, back, hback, hne, hoffset, hnamed⟩ := ih _ hlength h rfl
        refine ⟨(c :: rest.takeWhile isRawNameChar) ++ ((rest.dropWhile isRawNameChar).take size ++ front), back, ?_, hne,
          ?_, hnamed⟩
        · rw [List.append_assoc, List.append_assoc, ← hback, List.take_append_drop]
          exact hsplit
        · rw [hoffset]
          simp only [byteLength_append]
          omega
    · rw [rawAttributes_cons_not (by simpa using hc)] at h
      have hlength : rest.length < n := by
        rw [← hn, List.length_cons]
        omega
      obtain ⟨front, back, hback, hne, hoffset, hnamed⟩ := ih _ hlength h rfl
      exact ⟨c :: front, back, by simp [hback], hne, by simp [hoffset, Nat.add_assoc], hnamed⟩

/-- No blank stands in the name of what the scan finds. -/
theorem not_isBlank_of_mem_rawAttributes {cs : List Char} {offset : Nat} {raw : RawAttribute}
    (h : raw ∈ rawAttributes offset cs) : ∀ c ∈ raw.name.toList, isBlank c = false := by
  obtain ⟨front, back, -, -, -, hname⟩ := mem_rawAttributes h
  intro c hc
  rw [hname, String.toList_ofList] at hc
  obtain ⟨d, hd, rfl⟩ := List.mem_map.1 hc
  have hd := of_mem_takeWhile hd
  simp only [isRawNameChar, Bool.not_eq_true', Bool.or_eq_false_iff] at hd
  rw [isBlank_toLower]
  exact hd.1.1.1.1.1

/-- The scan of a name and of what the pattern takes of the text behind it. -/
theorem rawAttributes_named {name taken rest : List Char} (hne : name ≠ [])
    (hname : ∀ c ∈ name, isRawNameChar c = true)
    (htail : ∀ c, (taken ++ rest).head? = some c → isRawNameChar c = false) {hasValue quoted : Bool}
    (hsize : rawSize (taken ++ rest) = (taken.length, hasValue, quoted)) (offset : Nat) :
    rawAttributes offset (name ++ (taken ++ rest)) =
      ⟨String.ofList (name.map Char.toLower), hasValue, quoted, offset⟩ ::
        rawAttributes (offset + byteLength name + byteLength taken) rest := by
  rw [rawAttributes_name hne hname htail, hsize]
  simp

theorem le_of_mem_rawAttributes {cs : List Char} {offset : Nat} {raw : RawAttribute}
    (h : raw ∈ rawAttributes offset cs) : offset ≤ raw.offset := by
  obtain ⟨front, back, -, -, hoffset, -⟩ := mem_rawAttributes h
  omega

/-! ## Values -/

/-- A text that neither a name nor the sign of a value goes on with. -/
structure Apart (cs : List Char) : Prop where
  head : ∀ c, cs.head? = some c → isRawNameChar c = false
  sign : ∀ c, (cs.dropWhile isBlank).head? = some c → c ≠ '='

theorem rawValue?_of_apart {cs : List Char} (h : ∀ c, (cs.dropWhile isBlank).head? = some c → c ≠ '=') :
    rawValue? cs = none := by
  unfold rawValue?
  dsimp only
  rw [drop_takeWhile_length]
  split
  · rename_i rest heq
    exact absurd rfl (h '=' (by rw [heq]; rfl))
  · rfl

theorem rawSize_of_apart {cs : List Char} (h : ∀ c, (cs.dropWhile isBlank).head? = some c → c ≠ '=') :
    rawSize cs = (0, false, false) := by
  unfold rawSize
  rw [rawValue?_of_apart h]

theorem rawAttributes_bareName {name tail : List Char} (hne : name ≠ []) (hname : ∀ c ∈ name, isRawNameChar c = true)
    (htail : ∀ c, tail.head? = some c → isRawNameChar c = false)
    (hsign : ∀ c, (tail.dropWhile isBlank).head? = some c → c ≠ '=') (offset : Nat) :
    rawAttributes offset (name ++ tail) =
      ⟨String.ofList (name.map Char.toLower), false, false, offset⟩ ::
        rawAttributes (offset + byteLength name) tail := by
  rw [rawAttributes_name hne hname htail, rawSize_of_apart hsign]
  simp

/-- Behind a sign, the value is what follows the blanks. -/
theorem rawValue?_sign {before after value : List Char} (hbefore : ∀ c ∈ before, isBlank c = true)
    (hafter : ∀ c ∈ after, isBlank c = true) (hvalue : ∀ c, value.head? = some c → isBlank c = false) :
    rawValue? (before ++ '=' :: (after ++ value)) =
      match quotedSize? value with
      | some size => some (before.length + 1 + after.length + size, true)
      | none =>
        let size := (value.takeWhile isRawValueChar).length
        if size = 0 then none else some (before.length + 1 + after.length + size, false) := by
  have hsign : (before ++ '=' :: (after ++ value)).takeWhile isBlank = before :=
    takeWhile_append_stop hbefore (by simp [show isBlank '=' = false by decide])
  have hblank : (after ++ value).takeWhile isBlank = after := takeWhile_append_stop hafter hvalue
  unfold rawValue?
  cases hquoted : quotedSize? value <;> simp [hsign, hblank, hquoted]

/-- A value in quotes ends at the first quote like the one that starts it. -/
theorem quotedSize?_closed {q : Char} (hq : q = '"' ∨ q = '\'') {text : List Char} (htext : q ∉ text) (rest : List Char) :
    quotedSize? (q :: (text ++ q :: rest)) = some (text.length + 2) := by
  have hinside : (text ++ q :: rest).takeWhile (· != q) = text :=
    takeWhile_append_stop (fun c hc => by simpa using ne_of_mem_of_not_mem hc htext) (by simp)
  unfold quotedSize?
  simp only [hinside]
  rcases hq with rfl | rfl <;> simp

theorem rawValue?_quoted {before after text : List Char} {q : Char} (hq : q = '"' ∨ q = '\'')
    (hbefore : ∀ c ∈ before, isBlank c = true) (hafter : ∀ c ∈ after, isBlank c = true) (htext : q ∉ text)
    (rest : List Char) :
    rawValue? (before ++ '=' :: (after ++ (q :: (text ++ q :: rest)))) =
      some (before.length + 1 + after.length + (text.length + 2), true) := by
  rw [rawValue?_sign hbefore hafter (by rcases hq with rfl | rfl <;> simp <;> decide), quotedSize?_closed hq htext]

theorem quotedSize?_none {value : List Char} (h : ∀ c, value.head? = some c → isQuote c = false) :
    quotedSize? value = none := by
  cases value with
  | nil => rfl
  | cons c value =>
    have hc : (c == '"' || c == '\'') = false := h c rfl
    simp [quotedSize?, hc]

/-- A quote that is never closed starts no value in quotes. -/
theorem quotedSize?_unclosed {q : Char} {text : List Char} (h : q ∉ text) : quotedSize? (q :: text) = none := by
  have hinside : text.takeWhile (· != q) = text :=
    List.takeWhile_eq_self_iff.2 fun c hc => by simpa using ne_of_mem_of_not_mem hc h
  simp [quotedSize?, hinside]

theorem rawValue?_bare {before after value rest : List Char} (hbefore : ∀ c ∈ before, isBlank c = true)
    (hafter : ∀ c ∈ after, isBlank c = true) (hne : value ≠ []) (hvalue : ∀ c ∈ value, isRawValueChar c = true)
    (hquote : ∀ c, value.head? = some c → isQuote c = false)
    (hrest : ∀ c, rest.head? = some c → isRawValueChar c = false) :
    rawValue? (before ++ '=' :: (after ++ (value ++ rest))) =
      some (before.length + 1 + after.length + value.length, false) := by
  obtain ⟨c, cs, rfl⟩ := List.exists_cons_of_ne_nil hne
  have hblank : isBlank c = false := by
    have := hvalue c (by simp)
    simp only [isRawValueChar, Bool.not_eq_true', Bool.or_eq_false_iff] at this
    exact this.1
  rw [rawValue?_sign hbefore hafter (by simp [hblank]), quotedSize?_none (by simpa using hquote),
    takeWhile_append_stop hvalue hrest]
  simp

theorem rawValue?_missing {before after : List Char} (hbefore : ∀ c ∈ before, isBlank c = true)
    (hafter : ∀ c ∈ after, isBlank c = true) (rest : List Char) :
    rawValue? (before ++ '=' :: (after ++ '>' :: rest)) = none := by
  rw [rawValue?_sign hbefore hafter (by simp [show isBlank '>' = false by decide])]
  rfl

/-! ## Stray names -/

/-- In a text without signs, every run of name characters is an attribute without a value. -/
theorem rawAttributes_runs {cs cont : List Char} (hsign : '=' ∉ cs) (hcont : Apart cont) (offset : Nat) :
    ∃ strays : List RawAttribute,
      rawAttributes offset (cs ++ cont) = strays ++ rawAttributes (offset + byteLength cs) cont ∧
      strays.map RawAttribute.name =
        (runsOf isRawNameChar cs).map (fun run => String.ofList (run.map Char.toLower)) ∧
      ∀ raw ∈ strays, offset ≤ raw.offset ∧ raw.offset < offset + byteLength cs := by
  induction hn : cs.length using Nat.strongRecOn generalizing cs offset with
  | _ n ih =>
  cases cs with
  | nil => exact ⟨[], rfl, rfl, nofun⟩
  | cons c rest =>
    by_cases hc : isRawNameChar c = true
    · have hsplit : c :: rest = (c :: rest.takeWhile isRawNameChar) ++ rest.dropWhile isRawNameChar := by
        simp [List.takeWhile_append_dropWhile]
      generalize hrun : c :: rest.takeWhile isRawNameChar = run at hsplit
      generalize hback : rest.dropWhile isRawNameChar = back at hsplit
      have hne : run ≠ [] := by simp [← hrun]
      have hname : ∀ d ∈ run, isRawNameChar d = true := by
        intro d hd
        rw [← hrun] at hd
        rcases List.mem_cons.1 hd with rfl | hd
        · exact hc
        · exact of_mem_takeWhile hd
      have hhead : ∀ d, back.head? = some d → isRawNameChar d = false := by
        intro d hd
        rw [← hback] at hd
        exact head?_dropWhile_not hd
      have hsignBack : '=' ∉ back := fun h => hsign (by rw [hsplit]; simp [h])
      have hstop : ∀ d, (back ++ cont).head? = some d → isRawNameChar d = false := by
        intro d hd
        cases back with
        | nil => exact hcont.head d hd
        | cons e back => exact hhead d (by simpa using hd)
      have hnoValue : ∀ d, ((back ++ cont).dropWhile isBlank).head? = some d → d ≠ '=' := by
        intro d hd
        by_cases hall : ∀ e ∈ back, isBlank e = true
        · rw [List.dropWhile_append_of_pos hall] at hd
          exact hcont.sign d hd
        · rw [List.dropWhile_append] at hd
          rcases hdrop : back.dropWhile isBlank with _ | ⟨e, more⟩
          · exact absurd (List.dropWhile_eq_nil_iff.1 hdrop) hall
          · rw [hdrop] at hd
            obtain rfl : e = d := by simpa using hd
            rintro rfl
            exact hsignBack ((List.dropWhile_sublist isBlank).subset (by rw [hdrop]; simp))
      have hlength : back.length < n := by
        rw [← hn, hsplit, List.length_append]
        have := List.length_pos_iff.2 hne
        omega
      obtain ⟨strays, heq, hnames, hoffsets⟩ := ih _ hlength hsignBack (offset + byteLength run) rfl
      have hpos := byteLength_pos hne
      refine ⟨⟨String.ofList (run.map Char.toLower), false, false, offset⟩ :: strays, ?_, ?_, ?_⟩
      · rw [hsplit, List.append_assoc, rawAttributes_bareName hne hname hstop hnoValue]
        simp [heq, Nat.add_assoc]
      · rw [hsplit, runsOf_append hne hname hhead]
        simp [hnames]
      · rw [hsplit, byteLength_append]
        intro raw hraw
        rcases List.mem_cons.1 hraw with rfl | hraw
        · exact ⟨Nat.le_refl _, by dsimp only; omega⟩
        · have := hoffsets raw hraw
          omega
    · have hc : isRawNameChar c = false := by simpa using hc
      have hlength : rest.length < n := by
        rw [← hn, List.length_cons]
        omega
      obtain ⟨strays, heq, hnames, hoffsets⟩ :=
        ih _ hlength (fun h => hsign (by simp [h])) (offset + c.utf8Size) rfl
      refine ⟨strays, ?_, ?_, ?_⟩
      · rw [List.cons_append, rawAttributes_cons_not hc, heq, byteLength_cons, Nat.add_assoc]
      · rw [runsOf_cons_not hc, hnames]
      · intro raw hraw
        have := hoffsets raw hraw
        simp only [byteLength_cons]
        omega

end TemplateCompiler.Markup
