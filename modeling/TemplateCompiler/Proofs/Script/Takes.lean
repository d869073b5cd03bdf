import TemplateCompiler.Proofs.Script.Proper
import TemplateCompiler.Script.Name
/-!
# Steps of readers

`Takes` says what a reader takes from a text and hands out, `Careful` that it goes on in the text and forgets no flaw, and
`Gives` what its results are like. Each of them is read off the steps that a reader is made of.
-/

namespace TemplateCompiler.Script

open TemplateCompiler.Text

/-! ## Runs -/

/-- A reader takes a piece from the front of a text, and hands out `a`. -/
def Takes {α : Type} (p : Reader α) (scan : Scan) (a : α) (scan' : Scan) : Prop :=
  p scan = (some a, scan')

section Takes

variable {α β : Type} {scan scan' : Scan}

theorem bind_run (p : Reader α) (f : α → Reader β) (scan : Scan) :
    (p >>= f) scan =
      match p scan with
      | (some a, mid) => f a mid
      | (none, mid) => (none, mid) := by
  simp only [bind, OptionT.bind, OptionT.mk, StateT.bind]
  rcases p scan with ⟨_ | a, mid⟩ <;> rfl

theorem takes_bind {p : Reader α} {f : α → Reader β} {b : β} :
    Takes (p >>= f) scan b scan' ↔ ∃ a mid, Takes p scan a mid ∧ Takes (f a) mid b scan' := by
  unfold Takes
  rw [bind_run]
  rcases p scan with ⟨_ | a, mid⟩
  · constructor
    · intro h
      cases h
    · rintro ⟨_, _, h, _⟩
      cases h
  · constructor
    · intro h
      exact ⟨a, mid, rfl, h⟩
    · rintro ⟨_, _, heq, h⟩
      cases heq
      exact h

theorem takes_pure {a b : α} : Takes (pure a) scan b scan' ↔ b = a ∧ scan' = scan :=
  ⟨fun h => by cases h; exact ⟨rfl, rfl⟩, fun ⟨ha, hscan⟩ => by rw [ha, hscan]; rfl⟩

theorem not_takes_failure {a : α} : ¬ Takes failure scan a scan' :=
  fun h => by cases h

theorem takes_ite {p p' : Reader α} {c : Prop} [Decidable c] {a : α} :
    Takes (if c then p else p') scan a scan' ↔ c ∧ Takes p scan a scan' ∨ ¬c ∧ Takes p' scan a scan' := by
  split <;> simp_all

theorem takes_get {scan'' : Scan} : Takes (get : Reader Scan) scan scan'' scan' ↔ scan'' = scan ∧ scan' = scan :=
  ⟨fun h => by cases h; exact ⟨rfl, rfl⟩, fun ⟨ha, hscan⟩ => by rw [ha, hscan]; rfl⟩

theorem takes_modify {f : Scan → Scan} {u : Unit} : Takes (modify f : Reader Unit) scan u scan' ↔ scan' = f scan :=
  ⟨fun h => by cases h; rfl, fun hscan => by rw [hscan]; rfl⟩

/-- An attempt that fails takes nothing and notes no flaw. -/
theorem takes_attempt {p : Reader α} {found : Option α} (h : Takes (attempt p) scan found scan') :
    (∀ a, found = some a → Takes p scan a scan') ∧
      (found = none → scan'.rest = scan.rest ∧ scan'.flawed = scan.flawed) := by
  unfold Takes attempt at h
  split at h
  · rename_i a after hp
    cases h
    refine ⟨fun b hb => ?_, fun hnone => ?_⟩
    · cases hb
      exact hp
    · cases hnone
  · cases h
    refine ⟨fun b hb => ?_, fun _ => ⟨rfl, rfl⟩⟩
    cases hb

theorem takes_peek {next : Lexeme} : Takes peek scan next scan' ↔ next = lexeme scan.rest ∧ scan' = scan := by
  simp only [peek, takes_bind, takes_get, takes_pure]
  constructor
  · rintro ⟨_, _, ⟨rfl, rfl⟩, rfl, rfl⟩
    exact ⟨rfl, rfl⟩
  · rintro ⟨rfl, rfl⟩
    exact ⟨_, _, ⟨rfl, rfl⟩, rfl, rfl⟩

theorem takes_skip {next : Lexeme} {u : Unit} :
    Takes (skip next) scan u scan' ↔ scan' = { scan with rest := next.rest, flawed := scan.flawed || next.flawed } :=
  takes_modify

/-! ## Flaws -/

/-- A reader takes a piece from the front of a text, and forgets no flaw. -/
def Careful (p : Reader α) : Prop :=
  ∀ scan a scan', Takes p scan a scan' → scan'.flawed = false → scan.flawed = false ∧ scan'.rest <:+ scan.rest

theorem Careful.pure (a : α) : Careful (pure a : Reader α) := by
  intro scan b scan' h hflawed
  obtain ⟨-, rfl⟩ := takes_pure.1 h
  exact ⟨hflawed, List.suffix_rfl⟩

theorem Careful.bind {p : Reader α} {f : α → Reader β} (hp : Careful p) (hf : ∀ a, Careful (f a)) :
    Careful (p >>= f) := by
  intro scan b scan' h hflawed
  obtain ⟨a, mid, ha, hb⟩ := takes_bind.1 h
  obtain ⟨hmid, hrest⟩ := hf a _ _ _ hb hflawed
  obtain ⟨hscan, hrest'⟩ := hp _ _ _ ha hmid
  exact ⟨hscan, hrest.trans hrest'⟩

theorem Careful.failure : Careful (failure : Reader α) :=
  fun _ _ _ h => absurd h not_takes_failure

theorem Careful.ite {p p' : Reader α} (c : Prop) [Decidable c] (hp : Careful p) (hp' : Careful p') :
    Careful (if c then p else p') := by
  split
  · exact hp
  · exact hp'

theorem careful_peek : Careful peek := by
  intro scan next scan' h hflawed
  obtain ⟨-, rfl⟩ := takes_peek.1 h
  exact ⟨hflawed, List.suffix_rfl⟩

theorem careful_get : Careful (get : Reader Scan) := by
  intro scan a scan' h hflawed
  obtain ⟨-, rfl⟩ := takes_get.1 h
  exact ⟨hflawed, List.suffix_rfl⟩

theorem flawed_of_takes_flaw {u : Unit} (h : Takes flaw scan u scan') : scan'.flawed = true := by
  obtain rfl := takes_modify.1 h
  rfl

theorem careful_require (condition : Bool) : Careful (require condition) :=
  .ite _ (.pure _) .failure

/-- The next token is taken from the front of the text, and is as it should be unless something is at fault. -/
theorem takes_skip_lexeme {u : Unit} (h : Takes (skip (lexeme scan.rest)) scan u scan') (hflawed : scan'.flawed = false) :
    scan.flawed = false ∧ ∃ read, scan.rest = read ++ scan'.rest ∧ (lexeme scan.rest).token.IsReadFrom read := by
  obtain rfl := takes_skip.1 h
  obtain ⟨hscan, hlexeme⟩ := Bool.or_eq_false_iff.1 hflawed
  obtain ⟨read, hread, htoken⟩ := exists_of_lexeme scan.rest
  exact ⟨hscan, read, hread, htoken hlexeme⟩

theorem careful_accept (text : String) : Careful (accept text) := by
  intro scan found scan' h hflawed
  obtain ⟨next, mid, hpeek, h⟩ := takes_bind.1 h
  obtain ⟨rfl, rfl⟩ := takes_peek.1 hpeek
  rcases takes_ite.1 h with ⟨-, h⟩ | ⟨-, h⟩
  · obtain ⟨u, mid', hskip, h⟩ := takes_bind.1 h
    obtain ⟨-, rfl⟩ := takes_pure.1 h
    obtain ⟨hscan, read, hread, -⟩ := takes_skip_lexeme hskip hflawed
    exact ⟨hscan, read, hread.symm⟩
  · exact Careful.pure _ _ _ _ h hflawed

theorem careful_expect (text : String) : Careful (expect text) :=
  .bind (careful_accept text) careful_require

/-- A word that is checked to name a variable may name one here unless something is at fault. -/
theorem takes_checkVariable {ctx : Context} {name : String} {u : Unit} (h : Takes (checkVariable ctx name) scan u scan')
    (hflawed : scan'.flawed = false) : scan' = scan ∧ isVariable name = true ∧ isTaken ctx name = false := by
  obtain ⟨_, mid, hrequire, hcheck⟩ := takes_bind.1 h
  rcases takes_ite.1 hrequire with ⟨hvariable, hstays⟩ | ⟨-, hfails⟩
  · obtain ⟨-, rfl⟩ := takes_pure.1 hstays
    rcases takes_ite.1 hcheck with ⟨-, hflaw⟩ | ⟨htaken, hstays⟩
    · rw [flawed_of_takes_flaw hflaw] at hflawed
      cases hflawed
    · obtain ⟨-, rfl⟩ := takes_pure.1 hstays
      exact ⟨rfl, hvariable, by simpa using htaken⟩
  · exact absurd hfails not_takes_failure

/-! ## Results -/

/-- What a reader hands out is as `post` says. -/
def Gives (p : Reader α) (post : α → Prop) : Prop :=
  ∀ scan a scan', Takes p scan a scan' → post a

theorem Gives.pure {a : α} {post : α → Prop} (h : post a) : Gives (pure a) post := by
  intro scan b scan' hb
  obtain ⟨rfl, -⟩ := takes_pure.1 hb
  exact h

theorem Gives.failure {post : α → Prop} : Gives failure post :=
  fun _ _ _ h => absurd h not_takes_failure

/-- What comes first does not matter. -/
theorem Gives.after (p : Reader α) {f : α → Reader β} {post : β → Prop} (hf : ∀ a, Gives (f a) post) :
    Gives (p >>= f) post := by
  intro scan b scan' h
  obtain ⟨a, mid, -, hb⟩ := takes_bind.1 h
  exact hf a _ _ _ hb

theorem Gives.ite {p p' : Reader α} {post : α → Prop} (c : Prop) [Decidable c] (hp : Gives p post) (hp' : Gives p' post) :
    Gives (if c then p else p') post := by
  split
  · exact hp
  · exact hp'

end Takes
end TemplateCompiler.Script
