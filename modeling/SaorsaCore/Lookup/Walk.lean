import SaorsaCore.Lookup.Rounds

/-!
# Whole walks

From an idle lookup the runner returns after at most `max_iterations` rounds,
whatever the adapter answers, and the books of the lookup are in order when it
does.  What a walk guarantees to its caller is read off the books.
-/

namespace SaorsaCore.Lookup

open List

variable {Q N E : Type*} [LookupNode N] {adapter : LookupQuery Q N E}
  {order : HashOrder PeerId} {ledger : Ledger} {lookup : IterativeLookup N}
  {query : Q}

/-! ## The beginning of a round -/

/-- The lookup in a round that has just begun. -/
def IterativeLookup.begun (lookup : IterativeLookup N) : IterativeLookup N :=
  { lookup with
    iterations := lookup.iterations + 1
    roundQueries := 0
    roundActive := true }

theorem Idle.beginRound_cases (hidle : Idle ledger lookup)
    (hunfinished : lookup.termination = none) :
    (lookup.config.maxIterations ≤ lookup.iterations ∧
      lookup.beginRound = .ok (lookup.finish .iterationLimit)) ∨
    (lookup.iterations < lookup.config.maxIterations ∧ ((lookup.candidates.values = [] ∧
          lookup.beginRound = .ok (lookup.finish .exhausted)) ∨
        lookup.beginRound = .ok (lookup.begun, .continues))) := by
  rw [IterativeLookup.beginRound, if_neg (by simp [hidle.inactive]), hunfinished,
    hidle.accounts.discardContactedCandidates_eq]
  simp only
  split
  · next hlimit => exact Or.inl ⟨hlimit, rfl⟩
  · next hroom =>
      refine Or.inr ⟨Nat.lt_of_not_le hroom, ?_⟩
      split
      · next hempty => exact Or.inl ⟨isEmpty_iff.mp hempty, rfl⟩
      · exact Or.inr rfl

theorem Idle.begun (hidle : Idle ledger lookup) :
    Accounts ledger lookup.begun ∧ Awaits [] lookup.begun := by
  have haccounts := hidle.accounts
  exact ⟨⟨haccounts.queryOrder, haccounts.nodup, haccounts.contacted,
    haccounts.successful, haccounts.nodup_successful, haccounts.succeeded,
    haccounts.waiting, haccounts.fresh, haccounts.entered⟩,
    ⟨hidle.awaits.nodup, hidle.awaits.waiting⟩⟩

/-! ## Rounds one after the other -/

/-- The candidates of a round were taken from the head of a sorted queue, until
`alpha` of them were eligible or none was left.  So the batch is sorted, and a
candidate closer than one of the batch was considered before it. -/
structure FairRound (target : PeerId) (alpha : ℕ) (round : Round N) : Prop where
  sorted : round.queue.Pairwise fun left right =>
    distanceTo target left < distanceTo target right
  taken : ∃ rest, round.queue = round.answers.map Prod.fst ++ rest ∧
    (round.selected = true → (eligible round.answers).length = alpha ∨ rest = [])
  bounded : (eligible round.answers).length ≤ alpha
  increasing : (eligible round.answers).Pairwise fun left right =>
    distanceTo target left < distanceTo target right
  closest : ∀ chosen ∈ eligible round.answers, ∀ other ∈ round.queue,
    distanceTo target other < distanceTo target chosen → ∃ answer, (other, answer) ∈ round.answers

structure WalkSpec (ledger : Ledger) (lookup : IterativeLookup N)
    (walk : Walk N E) : Prop where
  accounts : Accounts (walk.rounds.foldl Ledger.extend ledger) walk.lookup
  target : walk.lookup.target = lookup.target
  config : walk.lookup.config = lookup.config
  rounds_le : lookup.iterations + walk.rounds.length ≤ lookup.config.maxIterations
  fair : ∀ round ∈ walk.rounds, FairRound lookup.target lookup.config.alpha round
  settled : walk.result = .ok .converged ∨ walk.result = .ok .exhausted → Settled walk.lookup
  accepted : ∀ refusal, walk.result ≠ .error (.lookup refusal)

omit [LookupNode N] in
theorem eligible_sublist (answers : List (N × Bool)) :
    (eligible answers).Sublist (answers.map Prod.fst) :=
  filter_sublist.map Prod.fst

variable {done : RoundResult Q N E}

theorem RoundSpec.fair (hspec : RoundSpec ledger lookup done) :
    FairRound lookup.target lookup.config.alpha done.round := by
  have hsorted : done.round.queue.Pairwise fun left right =>
      distanceTo lookup.target left < distanceTo lookup.target right := by
    rw [hspec.queue]
    exact lookup.candidates.sorted
  refine ⟨hsorted, hspec.taken, hspec.bounded, ?_, ?_⟩
  all_goals
    obtain ⟨rest, hqueue, -⟩ := hspec.taken
    rw [hqueue, pairwise_append] at hsorted
    obtain ⟨htaken, -, hbehind⟩ := hsorted
  · exact htaken.sublist (eligible_sublist _)
  · intro chosen hchosen other hother hcloser
    rw [hqueue, mem_append] at hother
    rcases hother with hanswered | hrest
    · obtain ⟨⟨_, answer⟩, hanswer, rfl⟩ := mem_map.mp hanswered
      exact ⟨answer, hanswer⟩
    · have hfarther := hbehind chosen ((eligible_sublist _).subset hchosen) other hrest
      exact absurd hcloser (Nat.lt_asymm hfarther)

/-- A walk that ends with this round. -/
theorem WalkSpec.last {result : Except (LookupRunError E) LookupTermination}
    (hspec : RoundSpec ledger lookup.begun done)
    (hroom : lookup.iterations < lookup.config.maxIterations)
    (hsettled : result = .ok .converged ∨ result = .ok .exhausted →
      Settled done.lookup) (haccepted : ∀ refusal, result ≠ .error (.lookup refusal)) :
    WalkSpec ledger lookup ⟨done.lookup, [done.round], result⟩ where
  accounts := hspec.accounts
  target := hspec.target
  config := hspec.config
  rounds_le := hroom
  fair round hround := by
    rw [mem_singleton.mp hround]
    exact hspec.fair
  settled := hsettled
  accepted := haccepted

/-- A walk that goes on after a round. -/
theorem WalkSpec.cons {walk : Walk N E} (hspec : RoundSpec ledger lookup.begun done)
    (hcompletes : Completes (ledger.extend done.round) lookup.begun done.lookup
      .continues) (hwalk : WalkSpec (ledger.extend done.round) done.lookup walk) :
    WalkSpec ledger lookup (walk.cons done.round) where
  accounts := hwalk.accounts
  target := hwalk.target.trans hspec.target
  config := hwalk.config.trans hspec.config
  rounds_le := by
    have hrounds := hwalk.rounds_le
    rw [hcompletes.iterations, hspec.config] at hrounds
    simp only [IterativeLookup.begun, Walk.cons, length_cons] at hrounds ⊢
    omega
  fair round hround := by
    rcases mem_cons.mp hround with rfl | hlater
    · exact hspec.fair
    · have hfair := hwalk.fair round hlater
      rw [hspec.target, hspec.config] at hfair
      exact hfair
  settled := hwalk.settled
  accepted := hwalk.accepted

/-- A walk that ends before its first round. -/
theorem WalkSpec.idle {reason : LookupTermination} (hidle : Idle ledger lookup)
    (hiterations : lookup.iterations ≤ lookup.config.maxIterations)
    (hsettled : reason = .converged ∨ reason = .exhausted → lookup.candidates.values = []) :
    WalkSpec ledger lookup (⟨(lookup.finish reason).1, [], .ok reason⟩ : Walk N E) where
  accounts := (hidle.accounts.idle hidle.awaits _ _).accounts
  target := rfl
  config := rfl
  rounds_le := hiterations
  fair round hround := by cases hround
  settled hresult := by
    apply Settled.of_empty
    exact hsettled (by simpa using hresult)
  accepted := by simp

variable (adapter order query) in
/-- The loop over rounds keeps the books, and it only runs out of fuel when it
has fewer rounds of fuel than `max_iterations` still allows. -/
theorem runLookupRounds_spec (fuel : ℕ) (hidle : Idle ledger lookup)
    (hunfinished : lookup.termination = none)
    (hiterations : lookup.iterations ≤ lookup.config.maxIterations) :
    (∀ walk, runLookupRounds adapter order fuel lookup query = some walk →
        WalkSpec ledger lookup walk) ∧
      (runLookupRounds adapter order fuel lookup query = none →
        lookup.iterations + fuel ≤ lookup.config.maxIterations) := by
  induction fuel generalizing ledger lookup query with
  | zero => exact ⟨by simp [runLookupRounds], fun _ => hiterations⟩
  | succ fuel ih =>
    rw [runLookupRounds]
    rcases hidle.beginRound_cases hunfinished with
      ⟨-, hbegin⟩ | ⟨hroom, ⟨hempty, hbegin⟩ | hbegin⟩
    · rw [hbegin]
      refine ⟨?_, nofun⟩
      rintro _ ⟨⟩
      exact WalkSpec.idle hidle hiterations (by simp)
    · rw [hbegin]
      refine ⟨?_, nofun⟩
      rintro _ ⟨⟩
      exact WalkSpec.idle hidle hiterations fun _ => hempty
    · rw [hbegin]
      obtain ⟨haccounts, hawaits⟩ := hidle.begun
      have hspec := runRound_spec adapter query order haccounts rfl rfl hawaits
      simp only
      cases hresult : (runRound adapter order lookup.begun query).result with
      | error failure =>
        refine ⟨?_, nofun⟩
        rintro _ ⟨⟩
        refine WalkSpec.last hspec hroom (by simp) fun refusal hrefusal => ?_
        cases hrefusal
        exact hspec.accepted refusal hresult
      | ok progress =>
        have hcompletes := hspec.completes progress hresult
        cases progress with
        | finished reason =>
          refine ⟨?_, nofun⟩
          rintro _ ⟨⟩
          refine WalkSpec.last hspec hroom (fun hreason => ?_) (by simp)
          exact hcompletes.settled (by simpa using hreason)
        | continues =>
          have hnext : _ = _ + 1 := hcompletes.iterations
          have hconfig : _ = lookup.config := hspec.config
          obtain ⟨hwalk, hfuel⟩ := ih (runRound adapter order lookup.begun query).query
            hcompletes.idle
            ((hcompletes.continues rfl).trans hunfinished)
            (by rw [hnext, hconfig]; exact hroom)
          rw [hnext, hconfig] at hfuel
          refine ⟨fun walk hrun => ?_, fun hnone => ?_⟩
          · obtain ⟨later, hlater, rfl⟩ := Option.map_eq_some_iff.mp hrun
            exact WalkSpec.cons hspec hcompletes (hwalk later hlater)
          · have hle := hfuel (Option.map_eq_none_iff.mp hnone)
            omega

end SaorsaCore.Lookup
