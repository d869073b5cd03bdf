import Mathlib.Data.List.Nodup
import TemplateCompiler.Proofs.Markup.RawAttributes
import TemplateCompiler.Proofs.Markup.Since
/-!
# Attributes scanned again

Where the raw text of a tag shows its attributes as they have been read, and where it does not. The scan of the raw text
takes more characters for blanks than the tokenization rules do. Such a blank in a name hides the attribute; one in a
value without quotes ends the value for that scan, which then goes on inside it and finds attributes that nobody has
written (`strayNames`). `Follows.found_iff` says when each attribute is found all the same.
-/

namespace TemplateCompiler.Markup

open TemplateCompiler.Text

/-! ## Attributes in the order of the source -/

/-- Attributes that are read one behind the other where `ws` is written from the byte `start` on. -/
inductive Follows : Nat → List WrittenAttribute → List TagAttribute → Prop where
  | nil (start : Nat) : Follows start [] []
  | cons {start : Nat} {w : WrittenAttribute} {t : TagAttribute} {ws : List WrittenAttribute} {ts : List TagAttribute}
      (valid : w.Valid) (denotes : w.Denotes start t) (rest : Follows (start + byteLength w.source) ws ts) :
      Follows start (w :: ws) (t :: ts)

theorem Follows.concat {start : Nat} {ws : List WrittenAttribute} {ts : List TagAttribute} (h : Follows start ws ts)
    {w : WrittenAttribute} {t : TagAttribute} (hvalid : w.Valid)
    (hdenotes : w.Denotes (start + byteLength (ws.flatMap WrittenAttribute.source)) t) :
    Follows start (ws ++ [w]) (ts ++ [t]) := by
  induction h with
  | nil start => exact .cons hvalid (by simpa using hdenotes) (.nil _)
  | cons valid denotes _ ih => exact .cons valid denotes (ih (by simpa [Nat.add_assoc] using hdenotes))

theorem sources_eq_flatMap (ws : List WrittenAttribute) : sources ws = ws.reverse.flatMap WrittenAttribute.source := by
  induction ws with
  | nil => rfl
  | cons w older ih => simp [sources, ih]

theorem Attributed.follows {start : Nat} {ws : List WrittenAttribute} {ts : List TagAttribute}
    (h : Attributed start ws ts) : Follows start ws.reverse ts.reverse := by
  induction h with
  | nil => exact .nil start
  | cons valid denotes _ ih =>
    rw [sources_eq_flatMap] at denotes
    simpa using ih.concat valid denotes

/-- What stands behind the attributes `ws`, up to the bracket that closes their tag: blanks, and a slash at most, which
does not run into a value without quotes. -/
structure Ends (ws : List WrittenAttribute) (tail : List Char) : Prop where
  shape : ∃ blanks slash, tail = blanks ++ slash ∧ (∀ c ∈ blanks, isSourceBlank c = true) ∧ (slash = [] ∨ slash = ['/'])
  apart : tail.head? = some '/' → ∀ w, ws.getLast? = some w → ∀ v, w.value = some v → v.quoting ≠ .unquoted

theorem TagSource.Closable.ends {s : TagSource} (h : s.Closable) : Ends s.attributes.reverse s.tail := by
  refine ⟨h.tail, fun hslash w hw v hv hquoting => h.apart hslash ?_⟩
  rw [List.getLast?_reverse] at hw
  obtain ⟨older, hattributes⟩ := List.head?_eq_some_iff.1 hw
  exact ⟨w, older, v, hattributes, hv, hquoting⟩

/-! ## Values without quotes -/

/-- The value without quotes that stands in `cs`, behind a name, and what follows it. -/
def bareValue (cs : List Char) : List Char × List Char :=
  let value := ((cs.dropWhile isSourceBlank).drop 1).dropWhile isSourceBlank
  (value.takeWhile fun c => !(isSourceBlank c || c == '>'), value.dropWhile fun c => !(isSourceBlank c || c == '>'))

/-- The names that a scan of raw text finds inside a value without quotes: those behind the first run of characters
that it does not take for blanks. -/
def strayNames (value : List Char) : List String :=
  (runsOf isRawNameChar ((value.dropWhile isBlank).dropWhile isRawValueChar)).map fun run =>
    String.ofList (run.map Char.toLower)

namespace TagAttribute

/-- The attribute as a scan of raw text should find it. -/
def raw (t : TagAttribute) : RawAttribute :=
  ⟨t.name, t.hasValue, t.quoted, t.start⟩

/-- The value of an attribute, if it is written without quotes, and what follows it in the tag that ends at `stop`. -/
def bareValue (source : List Char) (stop : Nat) (t : TagAttribute) : List Char × List Char :=
  Markup.bareValue ((slice? source (t.start + t.name.utf8ByteSize) stop).getD [])

/-- Whether an attribute has a value without quotes. -/
def isBare (t : TagAttribute) : Bool :=
  t.hasValue && !t.quoted

/-- An attribute whose name has no blank in it, and whose value, if it is without quotes, is not made of blanks alone,
unless the slash of the tag comes next. -/
structure Readable (source : List Char) (stop : Nat) (t : TagAttribute) : Prop where
  name : ∀ c ∈ t.name.toList, isBlank c = false
  value : t.isBare = true → (∃ c ∈ (t.bareValue source stop).1, isBlank c = false) ∨
    ((t.bareValue source stop).2.dropWhile isBlank).head? = some '/'

/-- The names that a scan of raw text finds in the value of an attribute. -/
def strayNames (source : List Char) (stop : Nat) (t : TagAttribute) : List String :=
  if t.isBare then Markup.strayNames (t.bareValue source stop).1 else []

end TagAttribute

theorem isBlank_of_isSourceBlank {c : Char} (h : isSourceBlank c = true) : isBlank c = true := by
  simp only [isSourceBlank, isTagBlank, Bool.or_eq_true, beq_iff_eq] at h
  rcases h with (((rfl | rfl) | h) | rfl) | rfl
  · decide
  · decide
  · simp [isBlank, h]
  · decide
  · decide

theorem isRawNameChar_of_isNameChar {c : Char} (h : isNameChar c = true) (hblank : isBlank c = false) :
    isRawNameChar c = true := by
  simp only [isNameChar, Bool.not_eq_true', Bool.or_eq_false_iff] at h
  simp [isRawNameChar, hblank, h]

theorem not_isRawNameChar_of_isBlank {c : Char} (h : isBlank c = true) : isRawNameChar c = false := by
  simp [isRawNameChar, h]

theorem not_isRawValueChar_of_isBlank {c : Char} (h : isBlank c = true) : isRawValueChar c = false := by
  simp [isRawValueChar, h]

theorem head_before_sign {before rest : List Char} (hbefore : ∀ c ∈ before, isBlank c = true) {c : Char}
    (hc : (before ++ '=' :: rest).head? = some c) : isRawNameChar c = false := by
  cases before with
  | nil =>
    obtain rfl : '=' = c := by simpa using hc
    decide
  | cons d before =>
    obtain rfl : d = c := by simpa using hc
    exact not_isRawNameChar_of_isBlank (hbefore d (by simp))

theorem Quoting.allows_unquoted {c : Char} (h : Quoting.unquoted.allows c = true) :
    isSourceBlank c = false ∧ c ≠ '>' ∧ isQuote c = false ∧ c ≠ '=' := by
  simp only [Quoting.allows, Bool.not_eq_true', Bool.or_eq_false_iff, beq_eq_false_iff_ne] at h
  simp [isQuote, h]

theorem WrittenValue.Valid.bareValue {v : WrittenValue} (h : v.Valid) (hquoting : v.quoting = .unquoted)
    {cont : List Char} (hcont : ∀ c, cont.head? = some c → (isSourceBlank c || c == '>') = true) :
    bareValue (v.source ++ cont) = (v.text, cont) := by
  have htext : ∀ c ∈ v.text, isSourceBlank c = false ∧ c ≠ '>' := by
    intro c hc
    have := Quoting.allows_unquoted (hquoting ▸ h.text c hc)
    exact ⟨this.1, this.2.1⟩
  have hsource : v.source ++ cont = v.before ++ '=' :: (v.after ++ (v.text ++ cont)) := by
    simp [WrittenValue.source, hquoting, Quoting.marks]
  have hbefore : (v.before ++ '=' :: (v.after ++ (v.text ++ cont))).dropWhile isSourceBlank =
      '=' :: (v.after ++ (v.text ++ cont)) :=
    dropWhile_append_stop h.before (by simp [show isSourceBlank '=' = false by decide])
  have hafter : (v.after ++ (v.text ++ cont)).dropWhile isSourceBlank = v.text ++ cont := by
    refine dropWhile_append_stop h.after fun c hc => ?_
    rw [List.head?_append_of_ne_nil _ (h.written hquoting)] at hc
    exact (htext c (List.mem_of_head? hc)).1
  have hall : ∀ c ∈ v.text, (!(isSourceBlank c || c == '>')) = true := by
    intro c hc
    simp [htext c hc]
  have hstop : ∀ c, cont.head? = some c → (!(isSourceBlank c || c == '>')) = false := by
    intro c hc
    rw [hcont c hc]
    rfl
  unfold Markup.bareValue
  rw [hsource, hbefore, List.drop_one, List.tail_cons, hafter]
  simp only [takeWhile_append_stop hall hstop, dropWhile_append_stop hall hstop]

/-! ## One attribute -/

section Attribute

variable {w : WrittenAttribute} {t : TagAttribute} {start : Nat}

theorem WrittenAttribute.Denotes.raw (h : w.Denotes start t) :
    String.ofList (w.name.map Char.toLower) = t.name := by
  rw [← h.name, String.ofList_toList]

theorem WrittenAttribute.Denotes.name_not_blank (h : w.Denotes start t) (hname : ∀ c ∈ t.name.toList, isBlank c = false) : ∀ c ∈ w.name, isBlank c = false := by
  intro c hc
  rw [← isBlank_toLower]
  exact hname _ (h.name ▸ List.mem_map_of_mem hc)

/-- A name without blanks is found, with whatever value the scan takes from the text behind it. -/
theorem WrittenAttribute.Valid.scan (h : w.Valid) (hdenotes : w.Denotes start t)
    (hname : ∀ c ∈ t.name.toList, isBlank c = false) (taken rest : List Char)
    (hhead : ∀ c, (taken ++ rest).head? = some c → isRawNameChar c = false) {hasValue quoted : Bool}
    (hsize : rawSize (taken ++ rest) = (taken.length, hasValue, quoted)) :
    rawAttributes start (w.gap ++ (w.name ++ (taken ++ rest))) =
      ⟨t.name, hasValue, quoted, t.start⟩ ::
        rawAttributes (start + byteLength (w.gap ++ (w.name ++ taken))) rest := by
  have hgap : ∀ c ∈ w.gap, isRawNameChar c = false := fun c hc =>
    not_isRawNameChar_of_isBlank (isBlank_of_isSourceBlank (h.blank c hc))
  have hchars : ∀ c ∈ w.name, isRawNameChar c = true := by
    intro c hc
    exact isRawNameChar_of_isNameChar (h.nameChars c hc) (hdenotes.name_not_blank hname c hc)
  rw [rawAttributes_skip hgap, rawAttributes_named h.name hchars hhead hsize, hdenotes.raw, ← hdenotes.start]
  simp [Nat.add_assoc, hdenotes.start]

theorem WrittenAttribute.Valid.scan_value (h : w.Valid) (hdenotes : w.Denotes start t)
    (hname : ∀ c ∈ t.name.toList, isBlank c = false) (before taken rest : List Char) (quoted : Bool)
    (hbefore : ∀ c ∈ before, isBlank c = true)
    (hvalue : rawValue? (before ++ '=' :: (taken ++ rest)) = some (before.length + 1 + taken.length, quoted)) :
    rawAttributes start (w.gap ++ (w.name ++ (before ++ '=' :: (taken ++ rest)))) =
      ⟨t.name, true, quoted, t.start⟩ ::
        rawAttributes (start + byteLength (w.gap ++ (w.name ++ (before ++ '=' :: taken)))) rest := by
  have hsplit : before ++ '=' :: (taken ++ rest) = (before ++ '=' :: taken) ++ rest := by simp
  rw [hsplit] at hvalue ⊢
  refine h.scan hdenotes hname _ _ (fun c hc => ?_) ?_
  · rw [← hsplit] at hc
    exact head_before_sign hbefore hc
  · rw [rawSize, hvalue]
    simp
    omega

variable {source front cont rest : List Char} {stop : Nat}

theorem isBare_iff (hdenotes : w.Denotes start t) :
    t.isBare = true ↔ ∃ v, w.value = some v ∧ v.quoting = .unquoted := by
  unfold TagAttribute.isBare
  rw [hdenotes.hasValue, hdenotes.quoted, WrittenAttribute.isQuoted]
  cases w.value with
  | none => simp
  | some v => cases v.quoting <;> simp

theorem WrittenAttribute.Denotes.bareValue {v : WrittenValue} (hdenotes : w.Denotes start t) (hvalid : w.Valid)
    (hv : w.value = some v) (hquoting : v.quoting = .unquoted)
    (hsource : source = front ++ (w.source ++ (cont ++ rest))) (hstart : start = byteLength front)
    (hstop : stop = start + byteLength (w.source ++ cont))
    (hcont : ∀ c, cont.head? = some c → (isSourceBlank c || c == '>') = true) :
    t.bareValue source stop = (v.text, cont) := by
  have hsize : t.name.utf8ByteSize = byteLength w.name := by
    rw [← byteLength_toList, hdenotes.name, byteLength_map_toLower]
  have hw : w.source = w.gap ++ (w.name ++ v.source) := by simp [WrittenAttribute.source, hv]
  have hslice : slice? source (t.start + t.name.utf8ByteSize) stop = some (v.source ++ cont) := by
    have hcut : slice? ((front ++ (w.gap ++ w.name)) ++ ((v.source ++ cont) ++ rest))
        (t.start + t.name.utf8ByteSize) stop = some (v.source ++ cont) :=
      slice?_append _ _ _ (by simp [hdenotes.start, hsize, hstart, Nat.add_assoc])
        (by simp [hstop, hstart, hw, Nat.add_assoc])
    rw [hsource, hw]
    simpa using hcut
  unfold TagAttribute.bareValue
  rw [hslice, Option.getD_some]
  exact (hvalid.value v hv).bareValue hquoting hcont

theorem strayNames_of_not_isBare (h : t.isBare = false) : t.strayNames source stop = [] := by
  simp [TagAttribute.strayNames, h]

theorem WrittenAttribute.source_of_value {v : WrittenValue} (hv : w.value = some v) :
    w.source = w.gap ++ (w.name ++ v.source) := by
  simp [WrittenAttribute.source, hv]

/-- What the scan makes of an attribute: the attribute, and then others inside its value, whose names are `names`. -/
def ScannedAs (w : WrittenAttribute) (t : TagAttribute) (start : Nat) (cont : List Char) (names : List String) : Prop :=
  ∃ strays : List RawAttribute,
    rawAttributes start (w.source ++ cont) =
      t.raw :: (strays ++ rawAttributes (start + byteLength w.source) cont) ∧
    strays.map RawAttribute.name = names ∧ ∀ raw ∈ strays, raw.offset < start + byteLength w.source

theorem scannedAs_bareName (hvalid : w.Valid) (hdenotes : w.Denotes start t)
    (hname : ∀ c ∈ t.name.toList, isBlank c = false) (hv : w.value = none) (hcont : Apart cont) :
    ScannedAs w t start cont [] := by
  refine ⟨[], ?_, rfl, nofun⟩
  have hscan := hvalid.scan hdenotes hname [] cont hcont.head (rawSize_of_apart hcont.sign)
  have hraw : t.raw = ⟨t.name, false, false, t.start⟩ := by
    simp [TagAttribute.raw, hdenotes.hasValue, hdenotes.quoted, WrittenAttribute.isQuoted, hv]
  simpa [WrittenAttribute.source, hv, hraw] using hscan

theorem scannedAs_quoted {v : WrittenValue} (hvalid : w.Valid) (hdenotes : w.Denotes start t)
    (hname : ∀ c ∈ t.name.toList, isBlank c = false) (hv : w.value = some v) (hquoting : v.quoting ≠ .unquoted)
    (cont : List Char) : ScannedAs w t start cont [] := by
  refine ⟨[], ?_, rfl, nofun⟩
  have hvv := hvalid.value v hv
  have hbefore : ∀ c ∈ v.before, isBlank c = true := fun c hc => isBlank_of_isSourceBlank (hvv.before c hc)
  have hafter : ∀ c ∈ v.after, isBlank c = true := fun c hc => isBlank_of_isSourceBlank (hvv.after c hc)
  obtain ⟨q, hq, hmarks, htext⟩ : ∃ q, (q = '"' ∨ q = '\'') ∧ v.quoting.marks = [q] ∧ q ∉ v.text := by
    have hallows := hvv.text
    cases hquote : v.quoting with
    | double => exact ⟨'"', .inl rfl, rfl, fun h => by simpa [hquote, Quoting.allows] using hallows _ h⟩
    | single => exact ⟨'\'', .inr rfl, rfl, fun h => by simpa [hquote, Quoting.allows] using hallows _ h⟩
    | unquoted => exact absurd hquote hquoting
  have hvalue := rawValue?_quoted hq hbefore hafter htext cont
  have hraw : t.raw = ⟨t.name, true, true, t.start⟩ := by
    simp [TagAttribute.raw, hdenotes.hasValue, hdenotes.quoted, WrittenAttribute.isQuoted, hv, hquoting]
  have hscan := hvalid.scan_value hdenotes hname v.before (v.after ++ q :: (v.text ++ [q])) cont true hbefore (by
      rw [show v.after ++ q :: (v.text ++ [q]) ++ cont = v.after ++ q :: (v.text ++ q :: cont) by simp, hvalue]
      simp [Nat.add_assoc])
  rw [WrittenAttribute.source_of_value hv, hraw]
  simpa [WrittenValue.source, hmarks] using hscan

/-- A value without quotes, of which the scan takes the first run of characters that are not blank. -/
theorem scannedAs_bare {v : WrittenValue} (hvalid : w.Valid) (hdenotes : w.Denotes start t)
    (hname : ∀ c ∈ t.name.toList, isBlank c = false) (hv : w.value = some v) (hquoting : v.quoting = .unquoted)
    (htext : ∃ c ∈ v.text, isBlank c = false) (hcont : Apart cont)
    (hend : ∀ c, cont.head? = some c → isRawValueChar c = false) :
    ScannedAs w t start cont (strayNames v.text) := by
  have hvv := hvalid.value v hv
  have hallows : ∀ c ∈ v.text, isSourceBlank c = false ∧ c ≠ '>' ∧ isQuote c = false ∧ c ≠ '=' :=
    fun c hc => Quoting.allows_unquoted (hquoting ▸ hvv.text c hc)
  have hbefore : ∀ c ∈ v.before, isBlank c = true := fun c hc => isBlank_of_isSourceBlank (hvv.before c hc)
  have hraw : t.raw = ⟨t.name, true, false, t.start⟩ := by
    simp [TagAttribute.raw, hdenotes.hasValue, hdenotes.quoted, WrittenAttribute.isQuoted, hv, hquoting]
  -- blanks that the scan skips, the value that it takes, and the rest of the value
  obtain ⟨blanks, hblanks⟩ : ∃ blanks, blanks = v.text.takeWhile isBlank := ⟨_, rfl⟩
  obtain ⟨core, hcore⟩ : ∃ core, core = (v.text.dropWhile isBlank).takeWhile isRawValueChar := ⟨_, rfl⟩
  obtain ⟨stray, hstray⟩ : ∃ stray, stray = (v.text.dropWhile isBlank).dropWhile isRawValueChar := ⟨_, rfl⟩
  have hsplit : v.text = blanks ++ (core ++ stray) := by
    rw [hblanks, hcore, hstray, List.takeWhile_append_dropWhile, List.takeWhile_append_dropWhile]
  have hafter : ∀ c ∈ v.after ++ blanks, isBlank c = true := by
    intro c hc
    rcases List.mem_append.1 hc with hc | hc
    · exact isBlank_of_isSourceBlank (hvv.after c hc)
    · exact of_mem_takeWhile (hblanks ▸ hc)
  have hne : core ≠ [] := by
    obtain ⟨c, hc, hblank⟩ := htext
    rcases hdrop : v.text.dropWhile isBlank with _ | ⟨d, more⟩
    · rw [List.dropWhile_eq_nil_iff.1 hdrop c hc] at hblank
      cases hblank
    · have hd : isBlank d = false := head?_dropWhile_not (by rw [hdrop]; rfl)
      have hbracket := (hallows d ((List.dropWhile_sublist isBlank).subset (by rw [hdrop]; simp))).2.1
      rw [hcore, hdrop, List.takeWhile_cons_of_pos (by simp [isRawValueChar, hd, hbracket])]
      simp
  have hstop : ∀ c, (stray ++ cont).head? = some c → isRawValueChar c = false := by
    intro c hc
    cases hs : stray with
    | nil => exact hend c (by simpa [hs] using hc)
    | cons d more =>
      rw [hs] at hc hstray
      exact head?_dropWhile_not (by rw [← hstray]; exact hc)
  have hvalue := rawValue?_bare hbefore hafter hne (fun c hc => of_mem_takeWhile (hcore ▸ hc))
    (fun c hc => (hallows c (by rw [hsplit]; simp [List.mem_of_head? hc])).2.2.1) hstop
  have hscan := hvalid.scan_value hdenotes hname v.before (v.after ++ (blanks ++ core)) (stray ++ cont) false hbefore
    (by simpa [Nat.add_assoc] using hvalue)
  obtain ⟨strays, heq, hnames, hoffsets⟩ := rawAttributes_runs
    (show '=' ∉ stray from fun h => (hallows '=' (by rw [hsplit]; simp [h])).2.2.2 rfl) hcont
    (start + byteLength (w.gap ++ (w.name ++ (v.before ++ '=' :: (v.after ++ (blanks ++ core))))))
  have hlength : start + byteLength w.source =
      start + byteLength (w.gap ++ (w.name ++ (v.before ++ '=' :: (v.after ++ (blanks ++ core))))) +
        byteLength stray := by
    rw [WrittenAttribute.source_of_value hv]
    simp [WrittenValue.source, hquoting, Quoting.marks, hsplit, Nat.add_assoc]
  refine ⟨strays, ?_, ?_, ?_⟩
  · rw [heq, ← hlength] at hscan
    rw [hraw, ← hscan, WrittenAttribute.source_of_value hv]
    simp [WrittenValue.source, hquoting, Quoting.marks, hsplit]
  · rw [hnames, strayNames, hstray]
  · rw [hlength]
    exact fun raw hmem => (hoffsets raw hmem).2

/-- A value of blanks that the slash of its tag comes next to is taken with that slash. -/
theorem scannedAs_blank {v : WrittenValue} (hvalid : w.Valid) (hdenotes : w.Denotes start t)
    (hname : ∀ c ∈ t.name.toList, isBlank c = false) (hv : w.value = some v) (hquoting : v.quoting = .unquoted)
    (htext : ∀ c ∈ v.text, isBlank c = true) (hcont : cont.dropWhile isBlank = ['/', '>']) :
    ScannedAs w t start cont (strayNames v.text) := by
  have hvv := hvalid.value v hv
  have hraw : t.raw = ⟨t.name, true, false, t.start⟩ := by
    simp [TagAttribute.raw, hdenotes.hasValue, hdenotes.quoted, WrittenAttribute.isQuoted, hv, hquoting]
  have hsplit : cont = cont.takeWhile isBlank ++ ['/', '>'] := by
    rw [← hcont, List.takeWhile_append_dropWhile]
  generalize hblanks : cont.takeWhile isBlank = blanks at hsplit
  have hall : ∀ c ∈ blanks, isBlank c = true := fun c hc => of_mem_takeWhile (hblanks ▸ hc)
  have hafter : ∀ c ∈ v.after ++ (v.text ++ blanks), isBlank c = true := by
    intro c hc
    simp only [List.mem_append] at hc
    rcases hc with hc | hc | hc
    · exact isBlank_of_isSourceBlank (hvv.after c hc)
    · exact htext c hc
    · exact hall c hc
  have hbefore : ∀ c ∈ v.before, isBlank c = true := fun c hc => isBlank_of_isSourceBlank (hvv.before c hc)
  have hvalue := rawValue?_bare hbefore hafter (show ['/'] ≠ [] by simp)
    (List.all_eq_true.1 (show ['/'].all isRawValueChar = true by decide)) (by simp [isQuote])
    (show ∀ c, ['>'].head? = some c → isRawValueChar c = false by simp [isRawValueChar])
  have hscan := hvalid.scan_value hdenotes hname v.before (v.after ++ (v.text ++ (blanks ++ ['/']))) ['>'] false hbefore
    (by simpa [Nat.add_assoc] using hvalue)
  have hnone : ∀ offset, rawAttributes offset cont = [] := by
    intro offset
    rw [hsplit, rawAttributes_skip fun c hc => not_isRawNameChar_of_isBlank (hall c hc),
      rawAttributes_cons_not (by decide), rawAttributes_cons_not (by decide)]
    unfold rawAttributes
    rfl
  refine ⟨[], ?_, ?_, by simp⟩
  · rw [rawAttributes_cons_not (by decide)] at hscan
    rw [hnone, hraw, WrittenAttribute.source_of_value hv]
    conv at hscan => rhs; unfold rawAttributes
    rw [hsplit]
    simpa [WrittenValue.source, hquoting, Quoting.marks] using hscan
  · rw [strayNames, List.dropWhile_eq_nil_iff.2 htext]
    rfl

theorem blanks_before_text {v : WrittenValue} (hvv : v.Valid) (htext : ∀ c ∈ v.text, isBlank c = true)
    {blanks : List Char} (hblanks : ∀ c ∈ blanks, isBlank c = true) :
    ∀ c ∈ v.after ++ (v.text ++ blanks), isBlank c = true := by
  intro c hc
  simp only [List.mem_append] at hc
  rcases hc with hc | hc | hc
  · exact isBlank_of_isSourceBlank (hvv.after c hc)
  · exact htext c hc
  · exact hblanks c hc

/-- A value of blanks is not seen where only the bracket is left. -/
theorem missing_value {v : WrittenValue} (hvalid : w.Valid) (hdenotes : w.Denotes start t)
    (hname : ∀ c ∈ t.name.toList, isBlank c = false) (hv : w.value = some v) (hquoting : v.quoting = .unquoted)
    (htext : ∀ c ∈ v.text, isBlank c = true) (hcont : cont.dropWhile isBlank = ['>']) :
    t.raw ∉ rawAttributes start (w.source ++ cont) := by
  have hvv := hvalid.value v hv
  have hbefore : ∀ c ∈ v.before, isBlank c = true := fun c hc => isBlank_of_isSourceBlank (hvv.before c hc)
  have hcut : cont = cont.takeWhile isBlank ++ ['>'] := by
    rw [← hcont, List.takeWhile_append_dropWhile]
  have hmissing : rawValue? (v.before ++ '=' :: (v.after ++ (v.text ++ cont))) = none := by
    have := rawValue?_missing hbefore
      (blanks_before_text hvv htext fun c (hc : c ∈ cont.takeWhile isBlank) => of_mem_takeWhile hc) []
    rw [hcut]
    simpa using this
  have hscan := hvalid.scan hdenotes hname [] (v.before ++ '=' :: (v.after ++ (v.text ++ cont)))
    (fun c hc => head_before_sign hbefore hc) (by rw [List.nil_append, rawSize, hmissing]; rfl)
  have hsource : w.source ++ cont =
      w.gap ++ (w.name ++ ([] ++ (v.before ++ '=' :: (v.after ++ (v.text ++ cont))))) := by
    simp [WrittenAttribute.source, WrittenValue.source, hv, hquoting, Quoting.marks]
  intro hmem
  rw [hsource, hscan] at hmem
  rcases List.mem_cons.1 hmem with heq | hmem
  · have hhas : t.hasValue = false := congrArg RawAttribute.hasValue heq
    rw [hdenotes.hasValue, hv] at hhas
    cases hhas
  · have hle := le_of_mem_rawAttributes hmem
    have hpos := byteLength_pos hvalid.name
    simp only [TagAttribute.raw, hdenotes.start, byteLength_append] at hle
    omega

/-- A value of blanks is taken with the name of the attribute that follows. -/
theorem swallowed_name {v : WrittenValue} (hvalid : w.Valid) (hdenotes : w.Denotes start t)
    (hname : ∀ c ∈ t.name.toList, isBlank c = false) (hv : w.value = some v) (hquoting : v.quoting = .unquoted)
    (htext : ∀ c ∈ v.text, isBlank c = true) {u : WrittenAttribute} {t' : TagAttribute} (hvalid' : u.Valid)
    (hdenotes' : u.Denotes (start + byteLength w.source) t') (hname' : ∀ c ∈ t'.name.toList, isBlank c = false)
    (cont : List Char) : t'.raw ∉ rawAttributes start (w.source ++ (u.source ++ cont)) := by
  have hvv := hvalid.value v hv
  have hbefore : ∀ c ∈ v.before, isBlank c = true := fun c hc => isBlank_of_isSourceBlank (hvv.before c hc)
  obtain ⟨more, hmore⟩ : ∃ more, u.source ++ cont = u.gap ++ (u.name ++ more) :=
    ⟨(u.value.map WrittenValue.source).getD [] ++ cont, by simp [WrittenAttribute.source]⟩
  have hchars : ∀ c ∈ u.name, isRawValueChar c = true ∧ isQuote c = false := by
    intro c hc
    have hchar := hvalid'.nameChars c hc
    simp only [isNameChar, Bool.not_eq_true', Bool.or_eq_false_iff] at hchar
    simp [isRawValueChar, isQuote, hdenotes'.name_not_blank hname' c hc, hchar]
  -- what the scan takes for the value starts with the name
  generalize hcore : (u.name ++ more).takeWhile isRawValueChar = core
  generalize hback : (u.name ++ more).dropWhile isRawValueChar = back
  have hcut : u.name ++ more = core ++ back := by rw [← hcore, ← hback, List.takeWhile_append_dropWhile]
  have hhead : core = u.name ++ more.takeWhile isRawValueChar := by
    rw [← hcore, List.takeWhile_append_of_pos fun c hc => (hchars c hc).1]
  have hquote : ∀ c, core.head? = some c → isQuote c = false := by
    intro c hc
    rw [hhead, List.head?_append_of_ne_nil _ hvalid'.name] at hc
    exact (hchars c (List.mem_of_head? hc)).2
  have hstop : ∀ c, back.head? = some c → isRawValueChar c = false := by
    intro c hc
    rw [← hback] at hc
    exact head?_dropWhile_not hc
  have hvalue := rawValue?_bare hbefore
    (blanks_before_text hvv htext fun c hc => isBlank_of_isSourceBlank (hvalid'.blank c hc))
    (by simp [hhead, hvalid'.name]) (fun c hc => of_mem_takeWhile (hcore ▸ hc)) hquote hstop
  have hscan := hvalid.scan_value hdenotes hname v.before (v.after ++ (v.text ++ u.gap) ++ core) back false hbefore
    (by simpa [Nat.add_assoc] using hvalue)
  have hsource : w.source ++ (u.source ++ cont) =
      w.gap ++ (w.name ++ (v.before ++ '=' :: (v.after ++ (v.text ++ u.gap) ++ core ++ back))) := by
    rw [hmore, hcut]
    simp [WrittenAttribute.source, WrittenValue.source, hv, hquoting, Quoting.marks]
  have hlength : byteLength w.source = byteLength w.gap + byteLength w.name +
      byteLength (v.before ++ '=' :: (v.after ++ v.text)) := by
    simp [WrittenAttribute.source, WrittenValue.source, hv, hquoting, Quoting.marks, Nat.add_assoc]
  have hpos := byteLength_pos hvalid.name
  intro hmem
  rw [hsource, hscan] at hmem
  rcases List.mem_cons.1 hmem with heq | hmem
  · have hstarts : t'.start = t.start := congrArg RawAttribute.offset heq
    rw [hdenotes.start, hdenotes'.start] at hstarts
    omega
  · have hle := le_of_mem_rawAttributes hmem
    have hpos' := byteLength_pos hvalid'.name
    rw [hhead] at hle
    simp only [TagAttribute.raw, hdenotes'.start, byteLength_append, byteLength_cons] at hle hlength
    omega

end Attribute

/-! ## All attributes of a tag -/

/-- The source of attributes, with the rest of their tag. -/
def onward (ws : List WrittenAttribute) (tail : List Char) : List Char :=
  ws.flatMap WrittenAttribute.source ++ (tail ++ ['>'])

@[simp] theorem onward_cons (w : WrittenAttribute) (ws : List WrittenAttribute) (tail : List Char) :
    onward (w :: ws) tail = w.source ++ onward ws tail := by
  simp [onward]

theorem Ends.of_cons {w : WrittenAttribute} {ws : List WrittenAttribute} {tail : List Char} (h : Ends (w :: ws) tail) :
    Ends ws tail := by
  refine ⟨h.shape, fun hslash w' hw' => h.apart hslash w' ?_⟩
  cases ws with
  | nil => cases hw'
  | cons u ws => rwa [List.getLast?_cons_cons]

theorem Ends.mark {ws : List WrittenAttribute} {tail : List Char} (h : Ends ws tail) :
    ∃ blanks mark, tail ++ ['>'] = blanks ++ mark ∧ (∀ c ∈ blanks, isSourceBlank c = true) ∧
      (mark = ['>'] ∨ mark = ['/', '>']) := by
  obtain ⟨blanks, slash, rfl, hblanks, rfl | rfl⟩ := h.shape
  · exact ⟨blanks, ['>'], by simp, hblanks, .inl rfl⟩
  · exact ⟨blanks, ['/', '>'], by simp, hblanks, .inr rfl⟩

theorem Ends.dropBlanks {ws : List WrittenAttribute} {tail : List Char} (h : Ends ws tail) :
    (tail ++ ['>']).dropWhile isBlank = ['>'] ∨ (tail ++ ['>']).dropWhile isBlank = ['/', '>'] := by
  obtain ⟨blanks, mark, heq, hblanks, hmark⟩ := h.mark
  rw [heq, dropWhile_append_stop (fun c hc => isBlank_of_isSourceBlank (hblanks c hc))]
  · exact hmark
  · rcases hmark with rfl | rfl <;> simp [isBlank]

namespace WrittenAttribute.Valid

variable {w : WrittenAttribute}

theorem head (h : w.Valid) (cont : List Char) {c : Char} (hc : (w.source ++ cont).head? = some c) :
    isSourceBlank c = true := by
  rw [source, List.append_assoc, List.head?_append_of_ne_nil _ h.gap] at hc
  exact h.blank c (List.mem_of_head? hc)

theorem dropBlanks (h : w.Valid) (hname : ∀ c ∈ w.name, isBlank c = false) (cont : List Char) :
    (w.source ++ cont).dropWhile isBlank = w.name ++ ((w.value.map WrittenValue.source).getD [] ++ cont) := by
  rw [source, List.append_assoc, List.append_assoc]
  refine dropWhile_append_stop (fun c hc => isBlank_of_isSourceBlank (h.blank c hc)) fun c hc => ?_
  rw [List.head?_append_of_ne_nil _ h.name] at hc
  exact hname c (List.mem_of_head? hc)

theorem head_dropBlanks (h : w.Valid) (hname : ∀ c ∈ w.name, isBlank c = false) (cont : List Char) {c : Char}
    (hc : ((w.source ++ cont).dropWhile isBlank).head? = some c) : isNameChar c = true := by
  rw [h.dropBlanks hname, List.head?_append_of_ne_nil _ h.name] at hc
  exact h.nameChars c (List.mem_of_head? hc)

end WrittenAttribute.Valid

namespace Follows

variable {start : Nat} {w : WrittenAttribute} {ws : List WrittenAttribute} {ts : List TagAttribute} {tail : List Char}

theorem apart (h : Follows start ws ts) (hends : Ends ws tail)
    (hnames : ∀ t ∈ ts, ∀ c ∈ t.name.toList, isBlank c = false) : Apart (onward ws tail) := by
  cases h with
  | nil start =>
    obtain ⟨blanks, mark, heq, hblanks, hmark⟩ := hends.mark
    constructor
    · intro c hc
      rw [onward, List.flatMap_nil, List.nil_append, heq] at hc
      cases blanks with
      | nil => rcases hmark with rfl | rfl <;> (obtain rfl := Option.some.inj hc; decide)
      | cons d blanks =>
        obtain rfl := Option.some.inj hc
        exact not_isRawNameChar_of_isBlank (isBlank_of_isSourceBlank (hblanks d (by simp)))
    · intro c hc
      rw [onward, List.flatMap_nil, List.nil_append] at hc
      rcases hends.dropBlanks with hdrop | hdrop <;> rw [hdrop] at hc <;> (obtain rfl := Option.some.inj hc; decide)
  | @cons _ u t ws ts valid denotes rest =>
    rw [onward_cons]
    refine ⟨fun c hc => not_isRawNameChar_of_isBlank (isBlank_of_isSourceBlank (valid.head _ hc)), fun c hc => ?_⟩
    rintro rfl
    exact absurd (valid.head_dropBlanks (denotes.name_not_blank (hnames t (by simp))) _ hc) (by decide)

/-- Behind a value without quotes stands a blank or the bracket. -/
theorem head_behind_bare (h : Follows start ws ts) (hends : Ends (w :: ws) tail) {v : WrittenValue}
    (hv : w.value = some v) (hquoting : v.quoting = .unquoted) {c : Char} (hc : (onward ws tail).head? = some c) :
    (isSourceBlank c || c == '>') = true := by
  cases h with
  | nil start =>
    rw [onward, List.flatMap_nil, List.nil_append] at hc
    obtain ⟨blanks, slash, htail, hblanks, hslash⟩ := hends.shape
    cases blanks with
    | nil =>
      rcases hslash with rfl | rfl
      · obtain rfl : '>' = c := by simpa [htail] using hc
        decide
      · exact absurd hquoting (hends.apart (by simp [htail]) w rfl v hv)
    | cons d blanks =>
      obtain rfl : d = c := by simpa [htail] using hc
      simp [hblanks d (by simp)]
  | cons valid denotes rest =>
    rw [onward_cons] at hc
    simp [valid.head _ hc]

theorem slash_behind (h : Follows start ws ts) (hends : Ends ws tail)
    (hnames : ∀ t ∈ ts, ∀ c ∈ t.name.toList, isBlank c = false)
    (hslash : ((onward ws tail).dropWhile isBlank).head? = some '/') :
    (onward ws tail).dropWhile isBlank = ['/', '>'] := by
  cases h with
  | nil start =>
    rw [onward, List.flatMap_nil, List.nil_append] at hslash ⊢
    rcases hends.dropBlanks with hdrop | hdrop
    · rw [hdrop] at hslash
      cases hslash
    · exact hdrop
  | @cons _ u t ws ts valid denotes rest =>
    rw [onward_cons] at hslash
    exact absurd (valid.head_dropBlanks (denotes.name_not_blank (hnames t (by simp))) _ hslash) (by decide)

variable {t : TagAttribute} {source front rest : List Char} {stop : Nat}

/-- What a readable attribute is scanned as. -/
theorem scannedAs (h : Follows start (w :: ws) (t :: ts)) (hends : Ends (w :: ws) tail)
    (hnames : ∀ u ∈ t :: ts, ∀ c ∈ u.name.toList, isBlank c = false)
    (hsource : source = front ++ (onward (w :: ws) tail ++ rest)) (hstart : start = byteLength front)
    (hstop : stop = start + byteLength (onward (w :: ws) tail)) (hread : t.Readable source stop) :
    ScannedAs w t start (onward ws tail) (t.strayNames source stop) := by
  cases h with
  | cons valid denotes later =>
  have hapart := later.apart hends.of_cons fun u hu => hnames u (by simp [hu])
  have hname := hnames t (by simp)
  by_cases hbare : t.isBare = true
  · obtain ⟨v, hv, hquoting⟩ := (isBare_iff denotes).1 hbare
    have hend := fun c => later.head_behind_bare hends hv hquoting (c := c)
    have hvalue := denotes.bareValue valid hv hquoting (by simpa using hsource) hstart (by simpa using hstop) hend
    have hstrays : t.strayNames source stop = strayNames v.text := by
      simp [TagAttribute.strayNames, hbare, hvalue]
    rw [hstrays]
    by_cases htext : ∃ c ∈ v.text, isBlank c = false
    · refine scannedAs_bare valid denotes hname hv hquoting htext hapart fun c hc => ?_
      rcases Bool.or_eq_true_iff.1 (hend c hc) with hblank | hbracket
      · exact not_isRawValueChar_of_isBlank (isBlank_of_isSourceBlank hblank)
      · obtain rfl : c = '>' := by simpa using hbracket
        decide
    · have hslash : ((onward ws tail).dropWhile isBlank).head? = some '/' := by
        have := hread.value hbare
        rw [hvalue] at this
        exact this.resolve_left htext
      exact scannedAs_blank valid denotes hname hv hquoting (by simpa using htext)
        (later.slash_behind hends.of_cons (fun u hu => hnames u (by simp [hu])) hslash)
  · rw [strayNames_of_not_isBare (by simpa using hbare)]
    cases hv : w.value with
    | none => exact scannedAs_bareName valid denotes hname hv hapart
    | some v =>
      refine scannedAs_quoted valid denotes hname hv (fun hquoting => hbare ?_) _
      exact (isBare_iff denotes).2 ⟨v, hv, hquoting⟩

/-- An attribute that is not readable is not found as it is read, or hides the one behind it. -/
theorem exists_hidden (h : Follows start (w :: ws) (t :: ts)) (hends : Ends (w :: ws) tail)
    (hnames : ∀ u ∈ t :: ts, ∀ c ∈ u.name.toList, isBlank c = false)
    (hsource : source = front ++ (onward (w :: ws) tail ++ rest)) (hstart : start = byteLength front)
    (hstop : stop = start + byteLength (onward (w :: ws) tail)) (hread : ¬ t.Readable source stop) :
    ∃ u ∈ t :: ts, u.raw ∉ rawAttributes start (onward (w :: ws) tail) := by
  cases h with
  | cons valid denotes later =>
  have hname := hnames t (by simp)
  obtain ⟨hbare, hvalue⟩ : t.isBare = true ∧ ¬ ((∃ c ∈ (t.bareValue source stop).1, isBlank c = false) ∨
      ((t.bareValue source stop).2.dropWhile isBlank).head? = some '/') := by
    by_contra hno
    refine hread ⟨hname, fun hbare => ?_⟩
    by_contra hvalue
    exact hno ⟨hbare, hvalue⟩
  obtain ⟨v, hv, hquoting⟩ := (isBare_iff denotes).1 hbare
  have hend := fun c => later.head_behind_bare hends hv hquoting (c := c)
  rw [denotes.bareValue valid hv hquoting (by simpa using hsource) hstart (by simpa using hstop) hend] at hvalue
  simp only [not_or, not_exists, not_and, Bool.not_eq_false] at hvalue
  obtain ⟨htext, hslash⟩ := hvalue
  cases later with
  | nil _ =>
    refine ⟨t, by simp, ?_⟩
    rw [onward_cons]
    refine missing_value valid denotes hname hv hquoting htext (hends.dropBlanks.resolve_right fun hdrop => hslash ?_)
    rw [onward, List.flatMap_nil, List.nil_append, hdrop]
    rfl
  | @cons _ u t' ws ts valid' denotes' later =>
    refine ⟨t', by simp, ?_⟩
    rw [onward_cons, onward_cons]
    exact swallowed_name valid denotes hname hv hquoting htext valid' denotes' (hnames t' (by simp)) _

end Follows

/-- What the scan finds of an attribute that stands behind a readable one. -/
theorem ScannedAs.find?_iff {w : WrittenAttribute} {t u : TagAttribute} {start : Nat} {cont : List Char}
    {names : List String} (h : ScannedAs w t start cont names) (hne : t.name ≠ u.name)
    (hle : start + byteLength w.source ≤ u.start) :
    (rawAttributes start (w.source ++ cont)).find? (·.name == u.name) = some u.raw ↔
      u.name ∉ names ∧ (rawAttributes (start + byteLength w.source) cont).find? (·.name == u.name) = some u.raw := by
  obtain ⟨strays, hscan, hnames, hoffsets⟩ := h
  have hhead : (t.raw.name == u.name) = false := by simpa [TagAttribute.raw] using hne
  rw [hscan, List.find?_cons, hhead, List.find?_append, ← hnames]
  dsimp only
  cases hstray : strays.find? (·.name == u.name) with
  | none =>
    have hno : u.name ∉ strays.map RawAttribute.name := by
      intro hmem
      obtain ⟨raw, hraw, hname⟩ := List.mem_map.1 hmem
      have := List.find?_eq_none.1 hstray raw hraw
      exact this (by simp [hname])
    simp [hno]
  | some raw =>
    have hmem := List.mem_of_find?_eq_some hstray
    have hname : raw.name = u.name := by simpa using List.find?_some hstray
    have hraw : raw ≠ u.raw := by
      rintro rfl
      have : u.start < start + byteLength w.source := hoffsets _ hmem
      omega
    have hin : u.name ∈ strays.map RawAttribute.name := hname ▸ List.mem_map_of_mem hmem
    simp [hraw, hin]

theorem Follows.le_start {start : Nat} {ws : List WrittenAttribute} {ts : List TagAttribute} (h : Follows start ws ts)
    {t : TagAttribute} (ht : t ∈ ts) : start ≤ t.start := by
  induction h with
  | nil => cases ht
  | cons valid denotes _ ih =>
    rcases List.mem_cons.1 ht with rfl | ht
    · have := denotes.start
      omega
    · have := ih ht
      omega

/-- Behind its name a start tag goes on with its attributes, up to its end. -/
theorem TagSource.Closes.behind_name {source front rest : List Char} {s : TagSource} {tag : Tag}
    (h : s.Closes (byteLength front) tag) (hclosing : tag.closing = false)
    (hsource : source = front ++ (s.source tag.closing ++ '>' :: rest)) :
    ∃ before, source = before ++ (onward s.attributes.reverse s.tail ++ rest) ∧
      tag.start + 1 + byteLength s.name = byteLength before ∧
      tag.stop = byteLength before + byteLength (onward s.attributes.reverse s.tail) ∧
      Follows (byteLength before) s.attributes.reverse tag.attributes := by
  have hstart : tag.start = byteLength front + byteLength s.text := h.spells.start
  have honward : onward s.attributes.reverse s.tail = s.body ++ ['>'] := by
    rw [onward, ← sources_eq_flatMap, TagSource.body, List.append_assoc]
  have hbefore : tag.start + 1 + byteLength s.name = byteLength (front ++ (s.text ++ '<' :: s.name)) := by
    simp [hstart, show '<'.utf8Size = 1 from rfl, Nat.add_assoc]
  refine ⟨front ++ (s.text ++ '<' :: s.name), ?_, hbefore, ?_, ?_⟩
  · simp [hsource, honward, TagSource.source, TagSource.inner, opening, hclosing]
  · rw [← hbefore, h.stop, honward, hstart, hclosing]
    simp [TagSource.source, TagSource.inner, opening, show '<'.utf8Size = 1 from rfl, show '>'.utf8Size = 1 from rfl]
    omega
  · have := h.spells.attributes.follows
    rw [hclosing] at this
    rw [← hbefore]
    simpa [opening, show '<'.utf8Size = 1 from rfl, Nat.add_assoc] using this

/-- The scan finds each attribute as it has been read exactly if all of them are readable, and none of them has the
name of a stray one inside an earlier value. -/
theorem Follows.found_iff {start : Nat} {ws : List WrittenAttribute} {ts : List TagAttribute}
    (h : Follows start ws ts) {tail source front rest : List Char} {stop : Nat} (hends : Ends ws tail)
    (hnames : ∀ t ∈ ts, ∀ c ∈ t.name.toList, isBlank c = false) (hnodup : (ts.map TagAttribute.name).Nodup)
    (hsource : source = front ++ (onward ws tail ++ rest)) (hstart : start = byteLength front)
    (hstop : stop = start + byteLength (onward ws tail)) :
    (∀ t ∈ ts, (rawAttributes start (onward ws tail)).find? (·.name == t.name) = some t.raw) ↔
      (∀ t ∈ ts, t.Readable source stop) ∧ ts.Pairwise fun t u => u.name ∉ t.strayNames source stop := by
  induction h generalizing front with
  | nil start => simp
  | @cons start w t ws ts valid denotes later ih =>
    have hfollows := Follows.cons valid denotes later
    obtain ⟨hdistinct, hnodup'⟩ := List.nodup_cons.1 hnodup
    by_cases hread : t.Readable source stop
    · have hscanned := hfollows.scannedAs hends hnames hsource hstart hstop hread
      have hhere : (rawAttributes start (w.source ++ onward ws tail)).find? (·.name == t.name) = some t.raw := by
        obtain ⟨strays, hscan, -, -⟩ := hscanned
        rw [hscan, List.find?_cons_of_pos (by simp [TagAttribute.raw])]
      have hthere : ∀ u ∈ ts, (rawAttributes start (w.source ++ onward ws tail)).find? (·.name == u.name) =
          some u.raw ↔ u.name ∉ t.strayNames source stop ∧
            (rawAttributes (start + byteLength w.source) (onward ws tail)).find? (·.name == u.name) = some u.raw :=
        fun u hu => hscanned.find?_iff (fun heq => hdistinct (heq ▸ List.mem_map_of_mem hu)) (later.le_start hu)
      have hlater := ih hends.of_cons (fun u hu => hnames u (by simp [hu])) hnodup'
        (show source = (front ++ w.source) ++ (onward ws tail ++ rest) by simpa using hsource)
        (by rw [hstart, byteLength_append]) (by rw [hstop]; simp [Nat.add_assoc])
      rw [onward_cons, List.forall_mem_cons, List.forall_mem_cons, List.pairwise_cons]
      constructor
      · rintro ⟨-, hfound⟩
        obtain ⟨hreads, hpairs⟩ := hlater.1 fun u hu => ((hthere u hu).1 (hfound u hu)).2
        exact ⟨⟨hread, hreads⟩, fun u hu => ((hthere u hu).1 (hfound u hu)).1, hpairs⟩
      · rintro ⟨⟨-, hreads⟩, hstrays, hpairs⟩
        exact ⟨hhere, fun u hu => (hthere u hu).2 ⟨hstrays u hu, hlater.2 ⟨hreads, hpairs⟩ u hu⟩⟩
    · obtain ⟨u, hu, hhidden⟩ := hfollows.exists_hidden hends hnames hsource hstart hstop hread
      constructor
      · exact fun hfound => absurd (List.mem_of_find?_eq_some (hfound u hu)) hhidden
      · exact fun hall => absurd (hall.1 t (by simp)) hread

end TemplateCompiler.Markup
