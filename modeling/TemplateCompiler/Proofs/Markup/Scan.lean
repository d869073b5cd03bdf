import TemplateCompiler.Markup.Token
import TemplateCompiler.Proofs.Text.LowerCase
/-!
# Steps of a scan

One step of a scan takes some characters off the front of the markup: the one that it reads, and what stands for one
character with it. `readings` are the characters that the steps of a whole scan read, each with the state it was read
in.
-/

namespace TemplateCompiler.Markup

open TemplateCompiler.Text

/-! ## Blanks -/

/-- A character that counts as a blank between the parts of a tag. A carriage return is read as a line feed. -/
def isSourceBlank (c : Char) : Bool :=
  isTagBlank c || c == '\r'

/-- What stands in a source where a scan reads `c`. A line feed is also written as a carriage return, with a line feed
or alone. -/
def Eats (c : Char) (skipped eaten : List Char) : Prop :=
  (c ≠ '\r' ∧ eaten = c :: skipped) ∨ (c = '\n' ∧ (eaten = ['\r'] ∨ eaten = ['\r', '\n']))

namespace Eats

variable {c : Char} {skipped eaten : List Char}

theorem ne_nil (h : Eats c skipped eaten) : eaten ≠ [] := by
  rcases h with ⟨-, rfl⟩ | ⟨-, rfl | rfl⟩ <;> simp

/-- A character other than a line feed stands for itself. -/
theorem exact (h : Eats c skipped eaten) (hc : c ≠ '\n') : eaten = c :: skipped := by
  rcases h with ⟨-, h⟩ | ⟨h, -⟩
  · exact h
  · exact absurd h hc

/-- What holds of the character, of what is skipped with it, and of a carriage return if the character is a line feed
holds of all that is taken. -/
theorem forall_mem {p : Char → Prop} (h : Eats c skipped eaten) (hc : p c) (hreturn : c = '\n' → p '\r')
    (hskipped : ∀ d ∈ skipped, p d) : ∀ d ∈ eaten, p d := by
  rcases h with ⟨-, rfl⟩ | ⟨rfl, rfl | rfl⟩
  · intro d hd
    rcases List.mem_cons.1 hd with rfl | hd
    · exact hc
    · exact hskipped d hd
  · simpa using hreturn rfl
  · simpa using ⟨hreturn rfl, hc⟩

theorem mem (h : Eats c [] eaten) {d : Char} (hd : d ∈ eaten) : d = c ∨ c = '\n' ∧ d = '\r' := by
  rcases h with ⟨-, rfl⟩ | ⟨rfl, rfl | rfl⟩
  · exact .inl (by simpa using hd)
  · exact .inr ⟨rfl, by simpa using hd⟩
  · rcases List.mem_cons.1 hd with rfl | hd
    · exact .inr ⟨rfl, rfl⟩
    · exact .inl (List.mem_singleton.1 hd)

theorem blank (h : Eats c [] eaten) (hc : isTagBlank c = true) : ∀ d ∈ eaten, isSourceBlank d = true := by
  intro d hd
  rcases h.mem hd with rfl | ⟨-, rfl⟩
  · simp [isSourceBlank, hc]
  · rfl

end Eats

/-! ## Character references -/

/-- A character of a reference, behind its ampersand. -/
def isReferenceChar (c : Char) : Bool :=
  c.isAlphanum || c == '#' || c == ';'

theorem isReferenceChar_toNat {c : Char} (h : isReferenceChar c = true) :
    (48 ≤ c.toNat ∧ c.toNat ≤ 57) ∨ (65 ≤ c.toNat ∧ c.toNat ≤ 90) ∨ (97 ≤ c.toNat ∧ c.toNat ≤ 122) ∨
      c.toNat = 35 ∨ c.toNat = 59 := by
  unfold isReferenceChar Char.isAlphanum Char.isAlpha Char.isUpper Char.isLower Char.isDigit at h
  simp only [Bool.or_eq_true, Bool.and_eq_true, decide_eq_true_eq, beq_iff_eq] at h
  rcases h with (((h | h) | h) | rfl) | rfl
  · exact .inr (.inl h)
  · exact .inr (.inr (.inl h))
  · exact .inl h
  · exact .inr (.inr (.inr (.inl rfl)))
  · exact .inr (.inr (.inr (.inr rfl)))

theorem isAlphanum_of_isDigitIn {base : Nat} {c : Char} (h : isDigitIn base c = true) : c.isAlphanum = true := by
  unfold isDigitIn hexValue? at h
  have hle : ∀ a b : Char, (a ≤ b) ↔ a.toNat ≤ b.toNat := fun a b => Iff.rfl
  unfold Char.isAlphanum Char.isAlpha Char.isUpper Char.isLower Char.isDigit
  simp only [Bool.or_eq_true, Bool.and_eq_true, decide_eq_true_eq] at h ⊢
  split at h
  · rename_i v hv
    split at hv
    · rename_i hd
      exact .inr (by simpa [Char.isDigit] using hd)
    · split at hv
      · rename_i hl
        simp only [hle] at hl
        refine .inl (.inr ⟨hl.1, ?_⟩)
        have h2 : c.toNat ≤ 102 := hl.2
        show c.toNat ≤ 122
        omega
      · split at hv
        · rename_i hu
          simp only [hle] at hu
          refine .inl (.inl ⟨hu.1, ?_⟩)
          have h2 : c.toNat ≤ 70 := hu.2
          show c.toNat ≤ 90
          omega
        · cases hv
  · cases h

theorem take_takeWhile_append {p : Char → Bool} {cs : List Char} {c : Char} {rest : List Char}
    (h : cs.drop (cs.takeWhile p).length = c :: rest) :
    cs.take ((cs.takeWhile p).length + 1) = cs.takeWhile p ++ [c] := by
  rw [List.take_add, h]
  rw [← List.prefix_iff_eq_take.1 (List.takeWhile_prefix p)]
  rfl

theorem of_mem_takeWhile {p : Char → Bool} {cs : List Char} {c : Char} (h : c ∈ cs.takeWhile p) : p c = true :=
  List.all_eq_true.1 List.all_takeWhile c h

theorem numericReference_take {base front size : Nat} {cs chars : List Char}
    (h : numericReference base front cs = .characters chars size) :
    ∃ n, size = front + n ∧ ∀ c ∈ cs.take n, isReferenceChar c = true := by
  unfold numericReference at h
  dsimp only at h
  split at h
  · cases h
  · split at h
    · cases h
    · rename_i rest hrest
      split at h
      · cases h
      · injection h with _ hsize
        refine ⟨(cs.takeWhile (isDigitIn base)).length + 1, by omega, ?_⟩
        rw [take_takeWhile_append hrest]
        intro c hc
        rcases List.mem_append.1 hc with hc | hc
        · simp [isReferenceChar, isAlphanum_of_isDigitIn (of_mem_takeWhile hc)]
        · obtain rfl := List.mem_singleton.1 hc
          rfl
    · cases h

theorem namedReference_take {inAttribute : Bool} {size : Nat} {cs chars : List Char}
    (h : namedReference inAttribute cs = .characters chars size) : ∀ c ∈ cs.take size, isReferenceChar c = true := by
  unfold namedReference at h
  dsimp only at h
  split at h
  · rename_i rest codes hrest _
    injection h with _ hsize
    subst hsize
    rw [take_takeWhile_append hrest]
    intro c hc
    rcases List.mem_append.1 hc with hc | hc
    · simp [isReferenceChar, of_mem_takeWhile hc]
    · obtain rfl := List.mem_singleton.1 hc
      rfl
  · split at h
    · split at h <;> cases h
    · split at h
      · split at h <;> cases h
      · cases h

/-- A reference is made of letters, digits, `#` and `;`. -/
theorem reference_take {inAttribute : Bool} {size : Nat} {cs chars : List Char}
    (h : reference inAttribute cs = .characters chars size) : ∀ c ∈ cs.take size, isReferenceChar c = true := by
  unfold reference at h
  split at h
  · cases h
  · obtain ⟨n, rfl, hn⟩ := numericReference_take h
    rw [Nat.add_comm]
    simpa [isReferenceChar] using hn
  · obtain ⟨n, rfl, hn⟩ := numericReference_take h
    rw [Nat.add_comm]
    simpa [isReferenceChar] using hn
  · obtain ⟨n, rfl, hn⟩ := numericReference_take h
    rw [Nat.add_comm]
    simpa [isReferenceChar] using hn
  · exact namedReference_take h

/-! ## Steps -/

/-- A character that a scan reads. -/
structure Reading where
  state : State
  /-- Where the character stands. -/
  offset : Nat
  char : Char
deriving DecidableEq, Repr

/-- What a scan of `cs`, which starts at the byte `pos`, reads from the state on. -/
def readingsFrom (state : State) (pos : Nat) : List Char → List Reading
  | [] => []
  | c :: rest =>
    let joined := c = '\r' && rest.head? = some '\n'
    let c' := if c = '\r' then '\n' else c
    if isForbiddenCode c'.toNat then []
    else
      match state.step pos c' rest with
      | .fault _ => [⟨state, pos, c'⟩]
      | .go next _ size =>
        let taken := if joined then 1 else size
        ⟨state, pos, c'⟩ :: readingsFrom next (pos + (c.utf8Size + byteLength (rest.take taken))) (rest.drop taken)
termination_by cs => cs.length

/-- What the scan of a source text reads. -/
def readings (source : List Char) : List Reading :=
  match source with
  | c :: rest =>
    if c.toNat = 0xFEFF then readingsFrom .data c.utf8Size rest else readingsFrom .data 0 source
  | [] => []

/-- The scan of `cs` reads `c`, which takes `eaten` off the front, hands out `tokens`, and goes on with `back` in the
state `next`. -/
structure StepsTo (state : State) (pos : Nat) (cs : List Char) (c : Char) (eaten back : List Char) (next : State)
    (tokens : List Token) : Prop where
  source : cs = eaten ++ back
  step : ∃ rest size, state.step pos c rest = .go next tokens size ∧ Eats c (rest.take size) eaten ∧
    (c = '\n' → size = 0) ∧ (c ≠ '\n' → rest = rest.take size ++ back)
  scan : scanFrom state pos cs = Scan.after tokens (scanFrom next (pos + byteLength eaten) back)
  readings : readingsFrom state pos cs = ⟨state, pos, c⟩ :: readingsFrom next (pos + byteLength eaten) back
  allowed : isForbiddenCode c.toNat = false

theorem step_newline {state next : State} {pos size : Nat} {rest : List Char} {tokens : List Token}
    (h : state.step pos '\n' rest = .go next tokens size) : size = 0 := by
  have hblank : isTagBlank '\n' = true := by decide
  cases state with
  | attributeValue quoting tag =>
    cases quoting <;> simp [State.step, attributeValueStep, valueCharacter, hblank, Step.to] at h <;> omega
  | doctypeIdentifier quoting identifier =>
    cases quoting <;> simp [State.step, doctypeIdentifierStep, Step.to] at h <;> omega
  | afterDoctypeIdentifier identifier => cases identifier <;> simp [State.step, hblank, Step.to] at h <;> omega
  | _ =>
    simp [State.step, dataStep, tagOpenStep, endTagOpenStep, tagNameStep, beforeAttributeNameStep, attributeNameStep,
      afterAttributeNameStep, beforeAttributeValueStep, afterAttributeValueQuotedStep, selfClosingStartTagStep,
      commentStep, commentStartStep, commentStartDashStep, commentEndDashStep, commentEndStep, commentEndBangStep,
      startsWithWord, hblank, Step.to] at h
    try omega

/-- A scan ends, or it takes a step. -/
theorem scanFrom_cases (state : State) (pos : Nat) (cs : List Char) :
    (scanFrom state pos cs).tokens = [] ∨
      ∃ c eaten back next tokens, StepsTo state pos cs c eaten back next tokens := by
  cases cs with
  | nil => exact .inl (by unfold scanFrom; rfl)
  | cons c rest =>
    by_cases hforbidden : isForbiddenCode (if c = '\r' then '\n' else c).toNat = true
    · exact .inl (by unfold scanFrom; simp [hforbidden])
    cases hstep : state.step pos (if c = '\r' then '\n' else c) rest with
    | fault fault => exact .inl (by unfold scanFrom; simp [hforbidden, hstep])
    | go next tokens size =>
      refine .inr ?_
      have hscan : scanFrom state pos (c :: rest) =
          let taken := if (c = '\r' && rest.head? = some '\n') = true then 1 else size
          Scan.after tokens (scanFrom next (pos + (c.utf8Size + byteLength (rest.take taken))) (rest.drop taken)) := by
        conv => lhs; unfold scanFrom
        simp only [hforbidden, hstep]
        rfl
      have hreadings : readingsFrom state pos (c :: rest) =
          let taken := if (c = '\r' && rest.head? = some '\n') = true then 1 else size
          ⟨state, pos, if c = '\r' then '\n' else c⟩ ::
            readingsFrom next (pos + (c.utf8Size + byteLength (rest.take taken))) (rest.drop taken) := by
        conv => lhs; unfold readingsFrom
        simp only [hforbidden, hstep]
        rfl
      by_cases hc : c = '\r'
      · subst hc
        simp only [if_true] at hstep hscan hreadings hforbidden
        obtain rfl := step_newline hstep
        by_cases hjoined : rest.head? = some '\n'
        · obtain ⟨back, rfl⟩ : ∃ back, rest = '\n' :: back := by
            cases rest with
            | nil => cases hjoined
            | cons d back => exact ⟨back, by simpa using hjoined⟩
          exact ⟨'\n', ['\r', '\n'], back, next, tokens, rfl,
            ⟨_, 0, hstep, .inr ⟨rfl, .inr rfl⟩, fun _ => rfl, fun h => absurd rfl h⟩,
            by simpa using hscan, by simpa using hreadings, by simpa using hforbidden⟩
        · exact ⟨'\n', ['\r'], rest, next, tokens, rfl,
            ⟨_, 0, hstep, .inr ⟨rfl, .inl rfl⟩, fun _ => rfl, fun h => absurd rfl h⟩,
            by simpa [hjoined] using hscan, by simpa [hjoined] using hreadings, by simpa using hforbidden⟩
      · simp only [hc, if_false] at hstep hscan hreadings hforbidden
        refine ⟨c, c :: rest.take size, rest.drop size, next, tokens, by simp,
          ⟨rest, size, hstep, .inl ⟨hc, rfl⟩, ?_, fun _ => by simp⟩,
          by simpa using hscan, by simpa using hreadings, by simpa using hforbidden⟩
        rintro rfl
        exact step_newline hstep

theorem StepsTo.length_lt {state next : State} {pos : Nat} {cs eaten back : List Char} {c : Char} {tokens : List Token}
    (h : StepsTo state pos cs c eaten back next tokens) : back.length < cs.length := by
  obtain ⟨_, _, -, heats, -, -⟩ := h.step
  have := List.length_pos_iff.2 heats.ne_nil
  rw [h.source, List.length_append]
  omega

/-- If steps keep `R` and hand out only tokens with `P`, so does a scan from where `R` holds. -/
theorem forall_mem_scanFrom {R : State → Nat → List Char → Prop} {P : Token → Prop}
    (hsteps : ∀ {state pos cs c eaten back next tokens}, R state pos cs →
      StepsTo state pos cs c eaten back next tokens →
      R next (pos + byteLength eaten) back ∧ ∀ token ∈ tokens, P token)
    {state : State} {pos : Nat} {cs : List Char} (h : R state pos cs) :
    ∀ token ∈ (scanFrom state pos cs).tokens, P token := by
  induction hn : cs.length using Nat.strongRecOn generalizing state pos cs with
  | _ n ih =>
    rcases scanFrom_cases state pos cs with hnone | ⟨c, eaten, back, next, tokens, hstep⟩
    · simp [hnone]
    · obtain ⟨hnext, htokens⟩ := hsteps h hstep
      rw [hstep.scan]
      exact List.forall_mem_append.2 ⟨htokens, ih _ (hn ▸ hstep.length_lt) hnext rfl⟩

end TemplateCompiler.Markup
