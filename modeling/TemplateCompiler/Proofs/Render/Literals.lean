import TemplateCompiler.Proofs.Render.Steps
import TemplateCompiler.Render.Value
/-!
# Reading literals back

A literal is declared as text. `readLiteral` reads a literal off the front of a text, and `readLiteral_text` shows that
it gives back the value that was written: the text of a literal says all of it. So a name that a literal is declared
under stands for one value, which is `HoistTable.literal?`.
-/

namespace TemplateCompiler.Render

open TemplateCompiler.Text

/-! ## Strings and numbers -/

/-- The character that a letter stands for behind a backslash. -/
def unescape (c : Char) : Char :=
  if c = 'n' then '\n'
  else if c = 'r' then '\r'
  else if c = 't' then '\t'
  else if c = 'b' then Char.ofNat 8
  else if c = 'f' then Char.ofNat 12
  else c

/-- The characters up to the closing quote, and what follows it. -/
def readQuoted : List Char → Option (List Char × List Char)
  | [] => none
  | '"' :: rest => some ([], rest)
  | '\\' :: 'u' :: '0' :: '0' :: high :: low :: rest => do
    let (cs, after) ← readQuoted rest
    return (Char.ofNat (16 * (← hexValue? high) + (← hexValue? low)) :: cs, after)
  | '\\' :: c :: rest => do
    let (cs, after) ← readQuoted rest
    return (unescape c :: cs, after)
  | c :: rest => do
    let (cs, after) ← readQuoted rest
    return (c :: cs, after)

theorem hexValue?_hexDigit {n : Nat} (h : n < 16) : hexValue? (hexDigit n) = some n := by
  revert n
  decide

theorem readQuoted_control {c : Char} (h : c.toNat < 32) (rest : List Char) :
    readQuoted (['\\', 'u', '0', '0', hexDigit (c.toNat / 16), hexDigit (c.toNat % 16)] ++ rest) =
      (readQuoted rest).map fun (cs, after) => (c :: cs, after) := by
  have hvalue : 16 * (c.toNat / 16) + c.toNat % 16 = c.toNat := Nat.div_add_mod _ _
  simp only [List.cons_append, List.nil_append, readQuoted, hexValue?_hexDigit (show c.toNat / 16 < 16 by omega),
    hexValue?_hexDigit (Nat.mod_lt c.toNat (show 16 > 0 by omega)), Option.bind_some, Option.bind_eq_bind, hvalue,
    Char.ofNat_toNat]
  cases readQuoted rest <;> rfl

/-- A character that is read as it is written gives itself. -/
theorem readQuoted_plain {c : Char} (hquote : c ≠ '"') (hbackslash : c ≠ '\\') (rest : List Char) :
    readQuoted (c :: rest) = (readQuoted rest).map fun (cs, after) => (c :: cs, after) := by
  rw [readQuoted]
  · cases readQuoted rest <;> rfl
  all_goals simp_all

/-- A letter behind a backslash, the one of a code aside, is read as what it stands for. -/
theorem readQuoted_escaped {c : Char} (hcode : c ≠ 'u') (rest : List Char) :
    readQuoted ('\\' :: c :: rest) = (readQuoted rest).map fun (cs, after) => (unescape c :: cs, after) := by
  rw [readQuoted]
  · cases readQuoted rest <;> rfl
  all_goals simp_all

theorem readQuoted_escapeChar (c : Char) (rest : List Char) :
    readQuoted (escapeChar c ++ rest) = (readQuoted rest).map fun (cs, after) => (c :: cs, after) := by
  have hnat {n : Nat} (h : c.toNat = n) : c = Char.ofNat n := by rw [← h, Char.ofNat_toNat]
  unfold escapeChar
  split_ifs with hquote hbackslash hline hreturn htab hback hfeed hcontrol
  · rw [hquote]
    exact readQuoted_escaped (by decide) rest
  · rw [hbackslash]
    exact readQuoted_escaped (by decide) rest
  · rw [hline]
    exact readQuoted_escaped (by decide) rest
  · rw [hreturn]
    exact readQuoted_escaped (by decide) rest
  · rw [htab]
    exact readQuoted_escaped (by decide) rest
  · rw [hnat hback]
    exact readQuoted_escaped (by decide) rest
  · rw [hnat hfeed]
    exact readQuoted_escaped (by decide) rest
  · exact readQuoted_control hcontrol rest
  · exact readQuoted_plain hquote hbackslash rest

theorem readQuoted_flatMap (cs rest : List Char) :
    readQuoted (cs.flatMap escapeChar ++ '"' :: rest) = some (cs, rest) := by
  induction cs with
  | nil => rfl
  | cons c cs ih =>
    rw [List.flatMap_cons, List.append_assoc, readQuoted_escapeChar, ih]
    rfl

/-- The number at the front of a text, and what follows it. -/
def readNumber (cs : List Char) : Option (Nat × List Char) :=
  if (cs.takeWhile Char.isDigit).isEmpty then none
  else some (Nat.ofDigitChars 10 (cs.takeWhile Char.isDigit) 0, cs.dropWhile Char.isDigit)

/-- No digit stands at the front of a text. -/
def NoDigit (cs : List Char) : Prop :=
  ∀ c ∈ cs.head?, c.isDigit = false

theorem takeWhile_noDigit {cs : List Char} (h : NoDigit cs) : cs.takeWhile Char.isDigit = [] := by
  cases cs with
  | nil => rfl
  | cons c cs => simp [h c rfl]

theorem dropWhile_noDigit {cs : List Char} (h : NoDigit cs) : cs.dropWhile Char.isDigit = cs := by
  cases cs with
  | nil => rfl
  | cons c cs => simp [h c rfl]

theorem toList_toString (n : Nat) : (toString n).toList = Nat.toDigits 10 n := by
  rw [Nat.toString_eq_ofList_toDigits, String.toList_ofList]

theorem isDigit_of_mem_toDigits {n : Nat} : ∀ c ∈ Nat.toDigits 10 n, c.isDigit = true :=
  fun _ hc => Nat.isDigit_of_mem_toDigits (by decide) (by decide) hc

/-- A number starts with a digit. -/
theorem exists_digit_toString (n : Nat) : ∃ c cs, (toString n).toList = c :: cs ∧ c.isDigit = true := by
  rw [toList_toString]
  cases hdigits : Nat.toDigits 10 n with
  | nil => exact absurd hdigits Nat.toDigits_ne_nil
  | cons c cs => exact ⟨c, cs, rfl, isDigit_of_mem_toDigits c (hdigits ▸ List.mem_cons_self)⟩

theorem readNumber_toString (n : Nat) {rest : List Char} (h : NoDigit rest) :
    readNumber ((toString n).toList ++ rest) = some (n, rest) := by
  unfold readNumber
  rw [toList_toString, List.takeWhile_append_of_pos isDigit_of_mem_toDigits,
    List.dropWhile_append_of_pos isDigit_of_mem_toDigits, takeWhile_noDigit h, dropWhile_noDigit h, List.append_nil,
    if_neg (by simp), Nat.ofDigitChars_ten_toDigits]

/-! ## Values -/

/-- The key at the front of a text, and what follows it. -/
def readKey : List Char → Option (String × List Char)
  | '"' :: rest => (readQuoted rest).map fun (cs, after) => (String.ofList cs, after)
  | cs => some (String.ofList (cs.takeWhile (· != ':')), cs.dropWhile (· != ':'))

mutual

/-- The literal at the front of a text, and what follows it. `depth` bounds the number of values and parts of values
that are read. -/
def readLiteral (depth : Nat) (cs : List Char) : Option (Value × List Char) :=
  match depth with
  | 0 => none
  | depth + 1 =>
    match cs with
    | '"' :: rest => (readQuoted rest).map fun (cs, after) => (.string (String.ofList cs), after)
    | 't' :: 'r' :: 'u' :: 'e' :: rest => some (.bool true, rest)
    | 'f' :: 'a' :: 'l' :: 's' :: 'e' :: rest => some (.bool false, rest)
    | '[' :: ']' :: rest => some (.array [], rest)
    | '[' :: rest => (readItems depth rest).map fun (items, after) => (.array items, after)
    | '{' :: '}' :: rest => some (.object [], rest)
    | '{' :: ' ' :: rest => (readEntries depth rest).map fun (entries, after) => (.object entries, after)
    | _ => (readNumber cs).map fun (n, after) => (.number n, after)

/-- The items of an array up to its closing bracket, and what follows that. -/
def readItems (depth : Nat) (cs : List Char) : Option (List Value × List Char) :=
  match depth with
  | 0 => none
  | depth + 1 => do
    let (v, after) ← readLiteral depth cs
    match after with
    | ']' :: rest => return ([v], rest)
    | ',' :: ' ' :: rest =>
      let (items, after) ← readItems depth rest
      return (v :: items, after)
    | _ => none

/-- The entries of an object up to its closing brace, and what follows that. -/
def readEntries (depth : Nat) (cs : List Char) : Option (List (String × Value) × List Char) :=
  match depth with
  | 0 => none
  | depth + 1 => do
    let (key, after) ← readKey cs
    let (v, after) ← readLiteral depth (after.drop 2)
    match after with
    | ' ' :: '}' :: rest => return ([(key, v)], rest)
    | ',' :: ' ' :: rest =>
      let (entries, after) ← readEntries depth rest
      return ((key, v) :: entries, after)
    | _ => none

end

theorem isIdentifierPart_of_start {c : Char} (h : isIdentifierStart c = true) : isIdentifierPart c = true := by
  unfold isIdentifierStart at h
  unfold isIdentifierPart
  split at h
  · rename_i hlow
    simp only [Bool.or_eq_true] at h
    simp only [if_pos hlow, Char.isAlphanum, Bool.or_eq_true]
    tauto
  · rename_i hhigh
    simp [if_neg hhigh, h]

theorem ne_of_isIdentifierPart {c d : Char} (h : isIdentifierPart c = true) (hd : isIdentifierPart d = false) :
    c ≠ d := by
  rintro rfl
  rw [h] at hd
  cases hd

theorem readKey_keyText (key : String) (rest : List Char) :
    readKey ((Value.keyText key).toList ++ ':' :: rest) = some (key, ':' :: rest) := by
  unfold Value.keyText
  split
  · rename_i hname
    cases hkey : key.toList with
    | nil => simp [isIdentifierName, isIdentifierChars, hkey] at hname
    | cons c cs =>
      simp only [isIdentifierName, isIdentifierChars, hkey, Bool.and_eq_true, List.all_eq_true] at hname
      have hparts : ∀ d ∈ c :: cs, isIdentifierPart d = true :=
        List.forall_mem_cons.2 ⟨isIdentifierPart_of_start hname.1, hname.2⟩
      have hcolon : ∀ d ∈ c :: cs, (d != ':') = true := fun d hd => by
        simpa using ne_of_isIdentifierPart (hparts d hd) (by decide)
      have hquote : c ≠ '"' := ne_of_isIdentifierPart (hparts c List.mem_cons_self) (by decide)
      have htake : ((c :: cs) ++ ':' :: rest).takeWhile (· != ':') = c :: cs := by
        rw [List.takeWhile_append_of_pos hcolon]
        simp
      have hdrop : ((c :: cs) ++ ':' :: rest).dropWhile (· != ':') = ':' :: rest := by
        rw [List.dropWhile_append_of_pos hcolon]
        simp
      rw [List.cons_append, readKey, ← List.cons_append, htake, hdrop, ← hkey, String.ofList_toList]
      simpa using hquote
  · simp [quote, quoteChars, readKey, readQuoted_flatMap]

/-- No literal starts with a bracket that closes. -/
theorem exists_head?_text {v : Value} (hv : v.isLiteral = true) : ∃ c, v.text.toList.head? = some c ∧ c ≠ ']' := by
  cases v with
  | string s => exact ⟨'"', by simp [Value.text, quote, quoteChars], by decide⟩
  | number n =>
    obtain ⟨c, cs, htext, hdigit⟩ := exists_digit_toString n
    refine ⟨c, by simp only [Value.text, htext, List.head?_cons], ?_⟩
    rintro rfl
    cases hdigit
  | bool value =>
    cases value
    case false => exact ⟨'f', rfl, by decide⟩
    case true => exact ⟨'t', rfl, by decide⟩
  | array items => exact ⟨'[', by simp [Value.text], by decide⟩
  | object entries =>
    cases entries with
    | nil => exact ⟨'{', rfl, by decide⟩
    | cons entry entries => exact ⟨'{', by simp [Value.text], by decide⟩
  | _ => cases hv

theorem textOfList_ne_bracket {v : Value} {vs : List Value} (hv : Value.areLiteral (v :: vs) = true)
    (cs cs' : List Char) : (Value.textOfList ", " (v :: vs)).toList ++ cs ≠ ']' :: cs' := by
  rw [Value.areLiteral, Bool.and_eq_true] at hv
  obtain ⟨c, hhead, hc⟩ := exists_head?_text hv.1
  obtain ⟨rest, htext⟩ := List.head?_eq_some_iff.1 hhead
  cases vs <;> simp [Value.textOfList, htext, hc]

theorem readLiteral_number (n depth : Nat) {rest : List Char} (h : NoDigit rest) :
    readLiteral (depth + 1) ((toString n).toList ++ rest) = some (.number n, rest) := by
  have hread := readNumber_toString n h
  obtain ⟨c, cs, htext, hdigit⟩ := exists_digit_toString n
  rw [htext, List.cons_append] at hread ⊢
  unfold readLiteral
  split
  case h_8 => rw [hread]; rfl
  all_goals
    rename_i heq
    rw [(List.cons.inj heq).1] at hdigit
    cases hdigit

/-- An array that does not close at once is read item by item. -/
theorem readLiteral_items (depth : Nat) {cs : List Char} (h : ∀ cs', cs ≠ ']' :: cs') :
    readLiteral (depth + 1) ('[' :: cs) = (readItems depth cs).map fun (items, after) => (.array items, after) := by
  rw [readLiteral]
  simpa using h

mutual

/-- A literal is read back from its text. -/
theorem readLiteral_text : ∀ (v : Value) (depth : Nat) (rest : List Char), v.isLiteral = true →
    v.text.toList.length < depth → NoDigit rest → readLiteral depth (v.text.toList ++ rest) = some (v, rest)
  | v, 0, rest => fun _ hdepth => by cases hdepth
  | .string s, depth + 1, rest => fun _ _ _ => by
    simp [Value.text, quote, quoteChars, readLiteral, readQuoted_flatMap]
  | .number n, depth + 1, rest => fun _ _ hrest => readLiteral_number n depth hrest
  | .bool true, depth + 1, rest => fun _ _ _ => by simp [Value.text, readLiteral]
  | .bool false, depth + 1, rest => fun _ _ _ => by simp [Value.text, readLiteral]
  | .array [], depth + 1, rest => fun _ _ _ => by simp [Value.text, Value.textOfList, readLiteral]
  | .array (v :: vs), depth + 1, rest => fun hv hdepth _ => by
    have hitems := readItems_text (v :: vs) depth rest (by simp) hv (by simp [Value.text] at hdepth; omega)
    have htext : (Value.array (v :: vs)).text.toList ++ rest =
        '[' :: ((Value.textOfList ", " (v :: vs)).toList ++ ']' :: rest) := by
      simp [Value.text]
    rw [htext, readLiteral_items depth (textOfList_ne_bracket hv _), hitems]
    rfl
  | .object [], depth + 1, rest => fun _ _ _ => by simp [Value.text, readLiteral]
  | .object (entry :: entries), depth + 1, rest => fun hv hdepth _ => by
    have hentries := readEntries_text (entry :: entries) depth rest (by simp) hv (by simp [Value.text] at hdepth; omega)
    have htext : (Value.object (entry :: entries)).text.toList ++ rest =
        '{' :: ' ' :: ((Value.textOfEntries (entry :: entries)).toList ++ ' ' :: '}' :: rest) := by
      simp [Value.text]
    rw [htext, readLiteral, hentries]
    rfl
  | .undefined, _ + 1, _ => fun hv => by cases hv
  | .raw _, _ + 1, _ => fun hv => by cases hv
  | .constant _, _ + 1, _ => fun hv => by cases hv
  | .call .., _ + 1, _ => fun hv => by cases hv
  | .function .., _ + 1, _ => fun hv => by cases hv
  | .arrow _, _ + 1, _ => fun hv => by cases hv
  | .conditional .., _ + 1, _ => fun hv => by cases hv
  | .concat _, _ + 1, _ => fun hv => by cases hv
  | .memo .., _ + 1, _ => fun hv => by cases hv

theorem readItems_text : ∀ (vs : List Value) (depth : Nat) (rest : List Char), vs ≠ [] → Value.areLiteral vs = true →
    (Value.textOfList ", " vs).toList.length + 1 < depth →
    readItems depth ((Value.textOfList ", " vs).toList ++ ']' :: rest) = some (vs, rest)
  | vs, 0, rest => fun _ _ hdepth => by cases hdepth
  | [], depth + 1, rest => fun hne => absurd rfl hne
  | [v], depth + 1, rest => fun _ hv hdepth => by
    simp only [Value.areLiteral, Bool.and_true] at hv
    have hread := readLiteral_text v depth (']' :: rest) hv (by simp only [Value.textOfList] at hdepth; omega)
      (by simp [NoDigit])
    simp [readItems, Value.textOfList, hread]
  | v :: w :: vs, depth + 1, rest => fun _ hv hdepth => by
    rw [Value.areLiteral, Bool.and_eq_true] at hv
    have hlength : v.text.toList.length + 2 + (Value.textOfList ", " (w :: vs)).toList.length < depth := by
      simp [Value.textOfList] at hdepth ⊢
      omega
    have hread := readLiteral_text v depth
      (',' :: ' ' :: ((Value.textOfList ", " (w :: vs)).toList ++ ']' :: rest)) hv.1 (by omega) (by simp [NoDigit])
    have hrest := readItems_text (w :: vs) depth rest (by simp) hv.2 (by omega)
    have htext : (Value.textOfList ", " (v :: w :: vs)).toList ++ ']' :: rest =
        v.text.toList ++ ',' :: ' ' :: ((Value.textOfList ", " (w :: vs)).toList ++ ']' :: rest) := by
      simp [Value.textOfList]
    simp [readItems, htext, hread, hrest]

theorem readEntries_text : ∀ (entries : List (String × Value)) (depth : Nat) (rest : List Char), entries ≠ [] →
    Value.haveLiterals entries = true → (Value.textOfEntries entries).toList.length + 1 < depth →
    readEntries depth ((Value.textOfEntries entries).toList ++ ' ' :: '}' :: rest) = some (entries, rest)
  | vs, 0, rest => fun _ _ hdepth => by cases hdepth
  | [], depth + 1, rest => fun hne => absurd rfl hne
  | [(key, v)], depth + 1, rest => fun _ hv hdepth => by
    simp only [Value.haveLiterals, Bool.and_true] at hv
    have hlength : v.text.toList.length < depth := by
      simp [Value.textOfEntries] at hdepth ⊢
      omega
    have hkey := readKey_keyText key (' ' :: (v.text.toList ++ ' ' :: '}' :: rest))
    have hread := readLiteral_text v depth (' ' :: '}' :: rest) hv hlength (by simp [NoDigit])
    have htext : (Value.textOfEntries [(key, v)]).toList ++ ' ' :: '}' :: rest =
        (Value.keyText key).toList ++ ':' :: ' ' :: (v.text.toList ++ ' ' :: '}' :: rest) := by
      simp [Value.textOfEntries]
    simp [readEntries, htext, hkey, hread]
  | (key, v) :: entry :: entries, depth + 1, rest => fun _ hv hdepth => by
    rw [Value.haveLiterals, Bool.and_eq_true] at hv
    have hlength : v.text.toList.length + 2 + (Value.textOfEntries (entry :: entries)).toList.length < depth := by
      simp [Value.textOfEntries] at hdepth ⊢
      omega
    have hkey := readKey_keyText key
      (' ' :: (v.text.toList ++ ',' :: ' ' :: ((Value.textOfEntries (entry :: entries)).toList ++ ' ' :: '}' :: rest)))
    have hread := readLiteral_text v depth
      (',' :: ' ' :: ((Value.textOfEntries (entry :: entries)).toList ++ ' ' :: '}' :: rest)) hv.1 (by omega)
      (by simp [NoDigit])
    have hrest := readEntries_text (entry :: entries) depth rest (by simp) hv.2 (by omega)
    have htext : (Value.textOfEntries ((key, v) :: entry :: entries)).toList ++ ' ' :: '}' :: rest =
        (Value.keyText key).toList ++ ':' :: ' ' :: (v.text.toList ++ ',' :: ' ' ::
          ((Value.textOfEntries (entry :: entries)).toList ++ ' ' :: '}' :: rest)) := by
      simp [Value.textOfEntries]
    simp [readEntries, htext, hkey, hread, hrest]

end

/-- The literal that a text is. -/
def literal? (text : String) : Option Value :=
  (readLiteral (text.toList.length + 1) text.toList).bind fun (v, after) => if after.isEmpty then some v else none

theorem literal?_text {v : Value} (hv : v.isLiteral = true) : literal? v.text = some v := by
  have hread := readLiteral_text v (v.text.toList.length + 1) [] hv (by omega) (by simp [NoDigit])
  rw [List.append_nil] at hread
  simp [literal?, hread]

/-- Literals differ in their texts. -/
theorem text_injective {v w : Value} (hv : v.isLiteral = true) (hw : w.isLiteral = true) (h : v.text = w.text) :
    v = w :=
  Option.some.inj (by rw [← literal?_text hv, h, literal?_text hw])

/-! ## What names stand for -/

namespace HoistTable

/-- What is declared under a name. -/
def declared? (table : HoistTable) (kind : HoistKind) (name : String) : Option String :=
  (table.entries.find? fun h => h.kind == kind && h.name == name).map Hoist.content

/-- The literal that a name stands for. -/
def constant? (table : HoistTable) (name : String) : Option Value :=
  (table.declared? .object name).bind literal?

/-- A search for the name of a declaration finds that declaration. -/
theorem Sound.find?_entries {table : HoistTable} (hs : table.Sound) {h : Hoist} (hm : h ∈ table.entries)
    {search : Hoist → Bool} (hself : search h = true) (hname : ∀ found, search found = true → found.name = h.name) :
    table.entries.find? search = some h := by
  cases hfind : table.entries.find? search with
  | none => exact absurd hself (List.find?_eq_none.1 hfind h hm)
  | some found =>
    have heq := hname found (List.find?_some hfind)
    rw [List.inj_on_of_nodup_map hs.names_nodup (List.mem_of_find?_eq_some hfind) hm heq]

theorem Sound.declared? {table : HoistTable} (hs : table.Sound) {kind : HoistKind} {content name : String}
    (h : table.Declares kind content name) : table.declared? kind name = some content := by
  rw [HoistTable.declared?, hs.find?_entries h (by simp) fun found hfound => ?_]
  · rfl
  · simp only [Bool.and_eq_true, beq_iff_eq] at hfound
    exact hfound.2

theorem Sound.constant? {table : HoistTable} (hs : table.Sound) {v : Value} (hv : v.isLiteral = true) {name : String}
    (h : table.Declares .object v.text name) : table.constant? name = some v := by
  rw [HoistTable.constant?, hs.declared? h]
  exact literal?_text hv

end HoistTable

end TemplateCompiler.Render
