import Criteria.Fixture
import Criteria.Proofs.Compile.Coverage
import Criteria.Proofs.Declaration.Failure

/-! # When a fixture passes
A fixture is judged in one of two ways. Where it expects messages, it passes if its schema or its
payload is refused with just these messages, and its cases do not count. Where it expects none, it
passes if a filter is built and gives the expected answer on each case, and of several wrong answers
the first is what the verdict is about.

* `Fixture.Builds`, `Fixture.Refused`: what becomes of the schema and the payload of a fixture.
* `Fixture.Passes`: there is nothing to say against the fixture.

Main statement: `Fixture.passes_exactly`. -/

namespace Criteria

/-- A verdict is silent only if everything was as expected. -/
theorem Verdict.message?_eq_none_iff {v : Verdict} {fixture : String} :
    v.message? fixture = none ↔ v = .passed := by
  cases v <;> simp [message?]

namespace Fixture

/-! ## What becomes of a fixture -/

/-- The fixture **builds** a filter: its declaration makes a schema, which accepts the payload. -/
def Builds (x : Fixture) (f : Filter Record) : Prop :=
  ∃ s, x.declaration.schema = .ok s ∧ s.compile x.payload = .ok f

/-- The fixture is **refused** with messages. -/
inductive Refused (x : Fixture) : List String → Prop where
  /-- The declaration makes no schema; the text of the error is the one message. -/
  | declaration {e : BuildError} (error : x.declaration.schema = .error e) : Refused x [e.message]
  /-- The schema refuses the payload; what it reports are the messages, in their order. -/
  | payload {s : Schema (Filter Record)} {r : Report} (schema : x.declaration.schema = .ok s)
      (error : s.compile x.payload = .error (.validation r)) : Refused x r.toList

/-- The fixture **passes**: there is nothing to say against it. -/
def Passes (x : Fixture) : Prop := x.verdict.message? x.name = none

variable {x : Fixture} {f : Filter Record}

/-- The filter of a fixture is the one it builds. -/
theorem filter_eq_ok_iff : x.filter = .ok f ↔ x.Builds f := by
  rw [filter, Builds]
  cases x.declaration.schema with
  | error e => simp
  | ok s => simp

/-- A declaration that fails has one message, the text of its error. -/
theorem messages_of_schema_eq_error {d : Declaration} {e : BuildError} (h : d.schema = .error e) :
    messages e = [e.message] := by
  obtain ⟨offer, -, rfl⟩ := d.schema_failsOn.eq_error_iff.1 h
  rfl

/-- A fixture is refused with the messages of the error that stands in the way of its filter. -/
theorem refused_iff {expected : List String} :
    x.Refused expected ↔ ∃ e, x.filter = .error e ∧ messages e = expected := by
  rw [filter]
  constructor
  · rintro (⟨herror⟩ | ⟨hschema, herror⟩)
    · rw [herror]
      exact ⟨_, rfl, messages_of_schema_eq_error herror⟩
    · rw [hschema]
      exact ⟨_, herror, rfl⟩
  · rintro ⟨e, h, rfl⟩
    cases hschema : x.declaration.schema with
    | error e' =>
      obtain rfl : e' = e := by simpa [hschema] using h
      rw [messages_of_schema_eq_error hschema]
      exact .declaration hschema
    | ok s =>
      rw [hschema] at h
      -- A payload is never refused in any other way than by a report.
      rcases s.compile_cases x.payload with ⟨f, hf, -⟩ | ⟨r, hr, -⟩
      · cases hf.symm.trans h
      · cases hr.symm.trans h
        exact .payload hschema hr

/-- **A refusal always says something**. -/
theorem Refused.ne_nil {expected : List String} (h : x.Refused expected) : expected ≠ [] := by
  cases h with
  | declaration _ => exact List.cons_ne_nil _ _
  | @payload s r _ error =>
    rcases s.compile_cases x.payload with ⟨f, hf, -⟩ | ⟨r', hr', hne⟩
    · cases hf.symm.trans error
    · cases hr'.symm.trans error
      exact hne

/-! ## The verdict -/

/-- To pass is to have the silent verdict. -/
theorem passes_iff : x.Passes ↔ x.verdict = .passed := Verdict.message?_eq_none_iff

/-- Where messages are expected, a refusal with them is what passes. -/
theorem passes_iff_refused {expected : List String} (h : x.expectErrors? = some expected) :
    x.Passes ↔ x.Refused expected := by
  rw [passes_iff, refused_iff, verdict, h]
  cases x.filter with
  | ok f => simp
  | error e => simp

/-- A case has passed if the filter answered as expected. -/
@[simp] theorem passed_result_iff {c : Case} :
    (result f c).passed ↔ f.adheres (.ofJson c.record) = c.expect := beq_iff_eq

/-- A fixture runs if it builds a filter, and its results are those of the cases in turn. -/
theorem run_eq_ok_iff {results : List CaseResult} :
    x.run = .ok results ↔ ∃ f, x.Builds f ∧ results = x.cases.map (result f) := by
  simp only [← filter_eq_ok_iff, run]
  cases x.filter with
  | error e => simp [Except.map]
  | ok f => simp [Except.map, eq_comm]

/-- Where no messages are expected, it passes to have run with every case passed. -/
theorem passes_iff_run (h : x.expectErrors? = none) :
    x.Passes ↔ ∃ results, x.run = .ok results ∧ ∀ r ∈ results, r.passed := by
  rw [passes_iff, verdict, h]
  cases x.run with
  | error e => simp
  | ok results =>
    have hfirst : results.find? (!·.passed) = none ↔ ∀ r ∈ results, r.passed := by simp
    cases hfind : results.find? (!·.passed) with
    | none => simpa [hfind] using hfirst.1 hfind
    | some r => simpa [hfind] using mt hfirst.2 (by simp [hfind])

/-- **The first case with a wrong answer** is what the verdict is about. -/
theorem verdict_of_first_wrong {before after : List Case} {c : Case} (h : x.expectErrors? = none)
    (hf : x.Builds f) (hcases : x.cases = before ++ c :: after)
    (hbefore : ∀ c' ∈ before, f.adheres (.ofJson c'.record) = c'.expect)
    (hc : f.adheres (.ofJson c.record) ≠ c.expect) : x.verdict = .caseFailed (result f c) := by
  have hrun : x.run = .ok (x.cases.map (result f)) := run_eq_ok_iff.2 ⟨f, hf, rfl⟩
  have hfirst : (x.cases.map (result f)).find? (!·.passed) = some (result f c) := by
    rw [List.find?_eq_some_iff_append]
    have hsplit : x.cases.map (result f) =
        before.map (result f) ++ result f c :: after.map (result f) := by
      rw [hcases, List.map_append, List.map_cons]
    refine ⟨by simpa [← passed_result_iff] using hc, _, _, hsplit, fun r hr => ?_⟩
    obtain ⟨c', hc', rfl⟩ := List.mem_map.1 hr
    rw [Bool.not_not]
    exact passed_result_iff.2 (hbefore c' hc')
  rw [verdict, h, hrun]
  simp only [hfirst]

/-- **A fixture passes exactly when it should**. It passes if it is refused with just the messages
that it expects, or if it expects none, builds a filter, and the filter gives the expected answer on
every case; and the latter is when a run gives only passed cases. Where a filter is built and an
answer is wrong, the first case with a wrong answer is named. To expect an empty list of messages is
to fail. -/
theorem passes_exactly (x : Fixture) :
    (x.Passes ↔
      (∃ expected, x.expectErrors? = some expected ∧ x.Refused expected) ∨
      (x.expectErrors? = none ∧
        ∃ f, x.Builds f ∧ ∀ c ∈ x.cases, f.adheres (.ofJson c.record) = c.expect)) ∧
    (x.expectErrors? = none →
      (x.Passes ↔ ∃ results, x.run = .ok results ∧ ∀ r ∈ results, r.passed)) ∧
    (∀ (f : Filter Record) (before : List Case) (c : Case) (after : List Case),
      x.expectErrors? = none → x.Builds f → x.cases = before ++ c :: after →
      (∀ c' ∈ before, f.adheres (.ofJson c'.record) = c'.expect) →
      f.adheres (.ofJson c.record) ≠ c.expect →
      x.verdict.message? x.name =
        some ("Fixture '" ++ x.name ++ "' case '" ++ c.name ++ "' failed: expected " ++
          toString c.expect ++ ", got " ++ toString !c.expect)) ∧
    (x.expectErrors? = some [] → ¬ x.Passes) := by
  refine ⟨?_, passes_iff_run, fun f before c after h hf hcases hbefore hc => ?_, fun h hpasses => ?_⟩
  -- Whether messages are expected decides which of the two ways to pass is open.
  · cases h : x.expectErrors? with
    | some expected => simp [passes_iff_refused h]
    | none =>
      rw [passes_iff_run h]
      simp only [run_eq_ok_iff, reduceCtorEq, false_and, exists_false, false_or, true_and]
      constructor
      · rintro ⟨_, ⟨f, hf, rfl⟩, hpassed⟩
        exact ⟨f, hf, fun c hc => passed_result_iff.1 (hpassed _ (List.mem_map_of_mem hc))⟩
      · rintro ⟨f, hf, hcases⟩
        refine ⟨_, ⟨f, hf, rfl⟩, List.forall_mem_map.2 fun c hc => ?_⟩
        exact passed_result_iff.2 (hcases c hc)
  · have hopposite : f.adheres (.ofJson c.record) = !c.expect := Bool.eq_not.2 hc
    rw [verdict_of_first_wrong h hf hcases hbefore hc, Verdict.message?, result, hopposite]
  · exact ((passes_iff_refused h).1 hpasses).ne_nil rfl

/-- Owners older than thirty with a cat or a dog, asked for the messages or the cases. -/
def owners (expectErrors? : Option (List String)) (cases : List Case) : Fixture :=
  ⟨"owners", "age and pets", .owners, .olderWithPets, expectErrors?, cases⟩

/-- Two cases, the second of them with a wrong answer. -/
def ownersCases : List Case :=
  [⟨"nobody", .null, false⟩, ⟨"bird and cat", .ownerOfBirdAndCat, false⟩]

/-- Of two cases the second is wrong and is named; an empty list of expected messages never
passes. -/
theorem passes_exactly_owners :
    ∃ f, (owners none ownersCases).Builds f ∧ f.adheres (.ofJson .null) = false ∧
      f.adheres (.ofJson .ownerOfBirdAndCat) ≠ false ∧
      (owners none ownersCases).verdict.message? "owners" =
        some "Fixture 'owners' case 'bird and cat' failed: expected false, got true" ∧
      ¬ (owners (some []) ownersCases).Passes ∧
      ((owners none []).Passes ↔
        ∃ results, (owners none []).run = .ok results ∧ ∀ r ∈ results, r.passed) := by
  have hbuilds : (owners none ownersCases).Builds _ := ⟨_, rfl, rfl⟩
  refine ⟨_, hbuilds, by decide, by decide, ?_,
    (passes_exactly (owners (some []) ownersCases)).2.2.2 rfl,
    (passes_exactly (owners none [])).2.1 rfl⟩
  exact (passes_exactly (owners none ownersCases)).2.2.1 _ [⟨"nobody", .null, false⟩] _ [] rfl
    hbuilds rfl (List.forall_mem_singleton.2 (by decide)) (by decide)

end Fixture

end Criteria
