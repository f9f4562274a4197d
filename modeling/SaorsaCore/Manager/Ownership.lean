import SaorsaCore.Manager.Correlation
import SaorsaCore.Manager.OwnerTasks

/-!
# Only owners change what is stored about them

Along every run of the manager the tasks in progress keep to `ownerDiscipline`, the
records in memory are proven, and the table is attested.  A step that changes the
addresses stored for a peer with a publication therefore delivers a newer publication
of that peer.
-/

namespace SaorsaCore.Manager

open Routing Transition Task.Sound ManagerState Option RoutingTable List

variable {Score : Type} [LinearOrder Score] (config : ManagerConfig Score)

/-- What the handler still does keeps to the discipline. -/
def HandlerPhase.Disciplined (store : AddressStore) : HandlerPhase Score → Prop
  | .serving task => task.Sound (ownerDiscipline config) (fun _ _ => True) store
  | .normalizing _ _ _ task => task.Sound (ownerDiscipline config)
      (fun store nodes => ∀ node ∈ nodes, Proven config store.statements node) store
  | .answering _ _ result => ∀ node ∈ result.nodes, Proven config store.statements node
  | _ => True

/-- The store, everything in progress and everything in memory respect the owners. -/
structure Owned (state : ManagerState Score) : Prop where
  store : Attested config state.store.statements state.store.table
  handler : ∀ number handler, state.handlers number = some handler →
    handler.phase.Disciplined config state.store
  job : ∀ number task, state.jobs number = some task → task.Sound (ownerDiscipline config)
      (fun store nodes => ∀ node ∈ nodes, Proven config store.statements node) state.store
  held : ∀ node ∈ state.held, Proven config state.store.statements node

/-- How the store may change in a step. -/
structure Evolves (before after : AddressStore) : Prop where
  attested : Attested config after.statements after.table
  statements : before.statements ⊆ after.statements
  table : TableChange config before.statements before.table after.table

variable {config} {state next : ManagerState Score}

namespace Evolves

variable {before : AddressStore}

variable (hattested : Attested config before.statements before.table)
include hattested

/-- New statements and other times and contexts. -/
theorem of_table
    {after : AddressStore} (hstatements : before.statements ⊆ after.statements)
    (htable : after.table = before.table) : Evolves config before after where
  attested := by
    rw [htable]
    exact hattested.mono hstatements
  statements := hstatements
  table := by
    rw [htable]
    exact .keeps hattested.valid fun peer => .refl before.table peer

theorem refl : Evolves config before before :=
  of_table hattested (List.Subset.refl _) rfl

theorem of_guarantee
    {after : AddressStore} (hguarantee : (ownerDiscipline config).guarantee before after) :
    Evolves config before after := by
  obtain ⟨hafter, hrely⟩ := (ownerDiscipline config).kept hattested hguarantee
  exact ⟨hafter, hrely, hguarantee.2⟩

end Evolves

theorem HandlerPhase.Disciplined.wait {phase : HandlerPhase Score}
    {before after : AddressStore} (hphase : phase.Disciplined config before)
    (hstatements : before.statements ⊆ after.statements) :
    phase.Disciplined config after := by
  cases phase with
  | serving task => exact Task.Sound.wait hphase hstatements
  | normalizing appPeer request key task => exact Task.Sound.wait hphase hstatements
  | answering appPeer request result =>
    intro node hnode
    exact (hphase node hnode).mono hstatements
  | _ => trivial

/-- What is new in a state has to be justified; the rest waits. -/
theorem Owned.evolve (howned : Owned config state)
    (hevolves : Evolves config state.store next.store)
    (hhandlers : ∀ number handler, next.handlers number = some handler →
      state.handlers number = some handler ∨ handler.phase.Disciplined config next.store)
    (hjobs : ∀ number task, next.jobs number = some task →
      state.jobs number = some task ∨ task.Sound (ownerDiscipline config)
        (fun store nodes => ∀ node ∈ nodes, Proven config store.statements node) next.store)
    (hheld : ∀ node ∈ next.held, node ∈ state.held ∨ Proven config next.store.statements node) :
    Owned config next where
  store := hevolves.attested
  handler number handler hhandler := by
    rcases hhandlers number handler hhandler with hbefore | hnew
    · exact (howned.handler number handler hbefore).wait hevolves.statements
    · exact hnew
  job number task htask := by
    rcases hjobs number task htask with hbefore | hnew
    · exact (howned.job number task hbefore).wait hevolves.statements
    · exact hnew
  held node hnode := by
    rcases hheld node hnode with hbefore | hnew
    · exact (howned.held node hbefore).mono hevolves.statements
    · exact hnew

variable (config) in
/-- A step from `state` to `next` that respects the owners. -/
def Lawful (state next : ManagerState Score) : Prop :=
  Owned config next ∧ Evolves config state.store next.store

section Handlers

variable {number : ℕ} {handler : Handler Score} {phase : HandlerPhase Score}

theorem Owned.turn (howned : Owned config state) (hevolves : Evolves config state.store next.store)
    (hhandlers : next.handlers =
      Function.update state.handlers number (some { handler with phase := phase }))
    (hjobs : next.jobs = state.jobs)
    (hheld : ∀ node ∈ next.held, node ∈ state.held ∨ Proven config next.store.statements node)
    (hphase : phase.Disciplined config next.store) : Lawful config state next := by
  refine ⟨howned.evolve hevolves ?_ ?_ hheld, hevolves⟩
  · intro other otherHandler hother
    rw [hhandlers] at hother
    rcases update_eq_some hother with ⟨-, rfl⟩ | ⟨-, hother⟩
    · exact .inr hphase
    · exact .inl hother
  · intro job task htask
    rw [hjobs] at htask
    exact .inl htask

theorem Owned.setPhase (howned : Owned config state)
    (hphase : phase.Disciplined config state.store) :
    Lawful config state (state.setPhase number handler phase) :=
  howned.turn (.refl howned.store) rfl rfl (fun _ hnode => .inl hnode) hphase

theorem Owned.act (howned : Owned config state) {store : AddressStore}
    (hguarantee : (ownerDiscipline config).guarantee state.store store)
    (hphase : phase.Disciplined config store) :
    Lawful config state ({ state with store := store }.setPhase number handler phase) :=
  howned.turn (.of_guarantee howned.store hguarantee) rfl rfl (fun _ hnode => .inl hnode) hphase

omit [LinearOrder Score] in
theorem statements_addStatements (statements : List OwnerStatement) :
    state.store.statements ⊆ (state.addStatements statements).store.statements ∧
      statements ⊆ (state.addStatements statements).store.statements :=
  ⟨subset_append_right _ _, subset_append_left _ _⟩

theorem Owned.dispatch (howned : Owned config state) :
    Lawful config state (state.dispatch config number handler) := by
  rw [ManagerState.dispatch]
  split
  · obtain ⟨hkept, hadded⟩ := statements_addStatements
      (publications handler.sender handler.message.payload)
    exact howned.turn (.of_table howned.store hkept rfl) rfl rfl
      (fun _ hnode => .inl hnode) (sound_handleDhtRequest hadded)
  · split
    · exact howned.setPhase trivial
    · split <;> exact howned.setPhase trivial
  · exact howned.setPhase trivial
  · exact howned.setPhase trivial

theorem Owned.claim (howned : Owned config state) {appPeer : PeerId}
    {result : DhtNetworkResult Score} :
    Lawful config state (state.claim config number handler appPeer result) := by
  rw [ManagerState.claim]
  split
  · exact howned.turn (.refl howned.store) rfl rfl (fun _ hnode => .inl hnode) trivial
  · next request hclaimed =>
      cases result with
      | nodesFound key nodes =>
        obtain ⟨hkept, hadded⟩ := statements_addStatements (selfReports config appPeer nodes)
        exact howned.turn (.of_table howned.store hkept rfl) rfl rfl
          (fun _ hnode => .inl hnode) (sound_normalizeLookupAnswer hadded)
      | _ =>
        exact howned.turn (.refl howned.store) rfl rfl (fun _ hnode => .inl hnode) (by rintro _ ⟨⟩)

theorem Owned.sendResponse (howned : Owned config state) {appPeer : PeerId} {request : ℕ}
    {result : DhtNetworkResult Score}
    (hresult : ∀ node ∈ result.nodes, Proven config state.store.statements node) :
    Lawful config state (state.sendResponse number handler appPeer request result) := by
  rw [ManagerState.sendResponse]
  split
  · exact howned.setPhase trivial
  · split
    · refine howned.turn (.refl howned.store) rfl rfl ?_ trivial
      intro node hnode
      rcases mem_append.mp hnode with hmem | hmem
      · exact .inr (hresult node hmem)
      · exact .inl hmem
    · exact howned.setPhase trivial

/-- A touch without an address keeps what is stored. -/
theorem Evolves.touch {before : AddressStore}
    (hattested : Attested config before.statements before.table) (peer : PeerId) :
    Evolves config before { before with
      table := (touchNodeTyped before.table peer none .unverified before.now).1 } := by
  rw [touchNodeTyped_none]
  apply Evolves.of_guarantee hattested
  refine ⟨rfl, .keeps (hattested.valid.tryTouchLastSeen peer none .unverified before.now) ?_⟩
  intro other
  exact tryTouchLastSeen_keepsView before.table other peer none .unverified before.now

theorem Owned.handle (howned : Owned config state) (hhandler : state.handlers number = some handler)
    (hstep : state.handle config number handler = some next) :
    Lawful config state next := by
  have hphase := howned.handler number handler hhandler
  rw [ManagerState.handle] at hstep
  cases hcase : handler.phase with
  | arrived topic =>
    simp only [hcase, some.injEq] at hstep
    rw [← hstep]
    split
    · exact howned.setPhase trivial
    · split <;> exact howned.setPhase trivial
  | updating appPeer =>
    simp only [hcase, some.injEq] at hstep
    rw [← hstep]
    exact howned.turn (.touch howned.store appPeer) rfl rfl (fun _ hnode => .inl hnode) trivial
  | dispatching =>
    simp only [hcase, some.injEq] at hstep
    exact hstep ▸ howned.dispatch
  | serving task =>
    rw [hcase] at hphase
    cases task <;> simp only [hcase, some.injEq] at hstep <;> rw [← hstep]
    · exact howned.setPhase trivial
    · obtain ⟨hguarantee, hnext⟩ := Task.Sound.act_step hphase howned.store
      exact howned.act hguarantee hnext
  | claiming appPeer result =>
    simp only [hcase, some.injEq] at hstep
    exact hstep ▸ howned.claim
  | normalizing appPeer request key task =>
    rw [hcase] at hphase
    cases task <;> simp only [hcase, some.injEq] at hstep <;> rw [← hstep]
    · exact howned.setPhase (Task.Sound.value_post hphase howned.store)
    · obtain ⟨hguarantee, hnext⟩ := Task.Sound.act_step hphase howned.store
      exact howned.act hguarantee hnext
  | answering appPeer request result =>
    rw [hcase] at hphase
    simp only [hcase, some.injEq] at hstep
    exact hstep ▸ howned.sendResponse hphase
  | _ => simp [hcase] at hstep

end Handlers

/-! ## Jobs and the other steps -/

theorem Owned.start (howned : Owned config state) {job : Job Score}
    (hinputs : ∀ node ∈ job.inputs, node ∈ state.held) :
    Lawful config state { state.addStatements (job.statements config) with
      jobs := Function.update state.jobs state.jobCount (some (job.task config))
      jobCount := state.jobCount + 1 } := by
  obtain ⟨hkept, hadded⟩ := statements_addStatements (job.statements config)
  have hevolves : Evolves config state.store
      (state.addStatements (job.statements config)).store := .of_table howned.store hkept rfl
  refine ⟨howned.evolve hevolves (fun _ _ hhandler => .inl hhandler) ?_
    (fun _ hnode => .inl hnode), hevolves⟩
  intro number task htask
  rcases update_eq_some htask with ⟨-, rfl⟩ | ⟨-, htask⟩
  · right
    apply sound_jobTask _ hadded
    intro node hnode
    exact (howned.held node (hinputs node hnode)).mono hkept
  · exact .inl htask

variable {number : ℕ}

theorem Owned.run (howned : Owned config state)
    (hstep : managerStep config state (.run number) = some next) :
    Lawful config state next := by
  rw [managerStep] at hstep
  split at hstep
  · cases hstep
  · next nodes hjob =>
      cases hstep
      refine ⟨howned.evolve (.refl howned.store) (fun _ _ hhandler => .inl hhandler) ?_ ?_,
        .refl howned.store⟩
      · intro other task htask
        by_cases hne : other = number
        · subst hne
          simp at htask
        · simp only [Function.update_of_ne hne] at htask
          exact .inl htask
      · intro node hnode
        rcases mem_append.mp hnode with hmem | hmem
        · exact .inr ((howned.job number _ hjob).value_post howned.store node hmem)
        · exact .inl hmem
  · next update rest hjob =>
      cases hstep
      obtain ⟨hguarantee, hnext⟩ := (howned.job number _ hjob).act_step howned.store
      have hevolves := Evolves.of_guarantee howned.store hguarantee
      refine ⟨howned.evolve hevolves (fun _ _ hhandler => .inl hhandler) ?_
        (fun _ hnode => .inl hnode), hevolves⟩
      intro other task htask
      rcases update_eq_some htask with ⟨-, rfl⟩ | ⟨-, htask⟩
      · exact .inr hnext
      · exact .inl htask

omit [LinearOrder Score] in
theorem proven_of_isExternal {node : DHTNode Score} (hexternal : isExternal config node = true)
    (statements : List OwnerStatement) : Proven config statements node := by
  rw [isExternal] at hexternal
  rw [Proven]
  split
  · trivial
  · next seq hauthority => simp [hauthority] at hexternal
  · next proof hauthority =>
      rw [hauthority] at hexternal
      simp only at hexternal
      split at hexternal
      · next verified hverify =>
          exact ⟨proof.signed, of_decide_eq_true hexternal ▸ hverify⟩
      · cases hexternal

/-- Every step respects the owners. -/
theorem Owned.step (howned : Owned config state) {step : ManagerStep Score}
    (hstep : managerStep config state step = some next) : Lawful config state next := by
  have hsilent : Evolves config state.store next.store → next.handlers = state.handlers →
      next.jobs = state.jobs → next.held = state.held → Lawful config state next := by
    intro hevolves hhandlers hjobs hheld
    refine ⟨howned.evolve hevolves ?_ ?_ ?_, hevolves⟩
    · rw [hhandlers]
      exact fun _ _ hhandler => .inl hhandler
    · rw [hjobs]
      exact fun _ _ htask => .inl htask
    · rw [hheld]
      exact fun _ hnode => .inl hnode
  have hidle := Evolves.refl howned.store
  cases step with
  | tick now =>
    cases hstep
    exact hsilent (.of_table howned.store (List.Subset.refl _) rfl) rfl rfl rfl
  | readdress context =>
    cases hstep
    exact hsilent (.of_table howned.store (List.Subset.refl _) rfl) rfl rfl rfl
  | authenticate authenticated =>
    cases hstep
    exact hsilent hidle rfl rfl rfl
  | routing op =>
    simp only [managerStep, ite_none_left_eq_some, some.injEq] at hstep
    obtain ⟨hquiet, rfl⟩ := hstep
    exact hsilent (.of_guarantee howned.store ⟨rfl, .routing op (by simpa using hquiet)⟩)
      rfl rfl rfl
  | sendRequest peer operation messageId =>
    cases hstep
    exact hsilent hidle rfl rfl rfl
  | dropReceiver request =>
    obtain ⟨pending, -, rfl⟩ := map_eq_some_iff.mp hstep
    exact hsilent hidle rfl rfl rfl
  | dropGuard request =>
    obtain ⟨pending, -, rfl⟩ := map_eq_some_iff.mp hstep
    exact hsilent hidle rfl rfl rfl
  | receive topic message sender transportSource =>
    cases hstep
    refine ⟨howned.evolve hidle ?_ (fun _ _ htask => .inl htask) (fun _ hnode => .inl hnode), hidle⟩
    intro number handler hhandler
    rcases update_eq_some hhandler with ⟨-, rfl⟩ | ⟨-, hhandler⟩
    · exact .inr trivial
    · exact .inl hhandler
  | handle number =>
    obtain ⟨handler, hhandler, hhandle⟩ := bind_eq_some_iff.mp hstep
    exact howned.handle hhandler hhandle
  | abandon number =>
    obtain ⟨handler, hhandler, habandon⟩ := bind_eq_some_iff.mp hstep
    simp only [ite_none_left_eq_some, some.injEq] at habandon
    exact habandon.2 ▸ howned.setPhase trivial
  | start job =>
    simp only [managerStep, ite_none_right_eq_some, some.injEq] at hstep
    exact hstep.2 ▸ howned.start hstep.1
  | run number => exact howned.run hstep
  | hold node =>
    simp only [managerStep, ite_none_right_eq_some, some.injEq] at hstep
    obtain ⟨hexternal, rfl⟩ := hstep
    refine ⟨howned.evolve hidle (fun _ _ hhandler => .inl hhandler)
      (fun _ _ htask => .inl htask) ?_, hidle⟩
    intro other hother
    rcases mem_cons.mp hother with rfl | hmem
    · exact .inr (proven_of_isExternal hexternal _)
    · exact .inl hmem

/-- The owners are respected along every run. -/
theorem reaches_owned {context : DialAddressContext} {now : ℕ}
    (hreaches : Reaches (managerStep config) (fun _ _ => True) (.initial config context now)
      state) : Owned config state := by
  apply hreaches.invariant
  · refine ⟨⟨RoutingTable.Valid.new _ _ _, fun peer => ⟨none, rfl, nofun⟩⟩, ?_, ?_, ?_⟩
    · intro number handler hhandler
      contradiction
    · intro number task htask
      contradiction
    · intro node hnode
      cases hnode
  · intro before step after howned _ hstep
    exact (howned.step hstep).1

/-! ## Who said it -/

variable (config) in
/-- The step takes up something that an owner sends over its own connection: a
publication, the self-report in an answer to a lookup, or the one in a payload of closer
peers. -/
def Says (state : ManagerState Score) (statement : OwnerStatement) : ManagerStep Score → Prop
  | .handle number => ∃ handler, state.handlers number = some handler ∧
      ((handler.phase = .dispatching ∧ handler.message.messageType = .request ∧
        statement ∈ publications handler.sender handler.message.payload) ∨
      ∃ appPeer key nodes, handler.phase = .claiming appPeer (.nodesFound key nodes) ∧
        statement ∈ selfReports config appPeer nodes)
  | .start job => statement ∈ job.statements config
  | _ => False

variable (config) in
/-- The statement was made in the run from `start` to `state`. -/
def Heard (start state : ManagerState Score) (statement : OwnerStatement) : Prop :=
  ∃ earlier step later, Reaches (managerStep config) (fun _ _ => True) start earlier ∧
    Says config earlier statement step ∧ managerStep config earlier step = some later ∧
      Reaches (managerStep config) (fun _ _ => True) later state

variable {handler : Handler Score} {statement : OwnerStatement}

omit [LinearOrder Score] in
theorem says_of_dispatch (hhandler : state.handlers number = some handler)
    (hphase : handler.phase = .dispatching)
    (hnew : statement ∈ (state.dispatch config number handler).store.statements) :
    statement ∈ state.store.statements ∨ Says config state statement (.handle number) := by
  rw [dispatch] at hnew
  split at hnew
  · next htype =>
      rcases mem_append.mp hnew with hmem | hmem
      · exact .inr ⟨handler, hhandler, .inl ⟨hphase, htype, hmem⟩⟩
      · exact .inl hmem
  · split at hnew
    · exact .inl hnew
    · split at hnew <;> exact .inl hnew
  · exact .inl hnew
  · exact .inl hnew

theorem says_of_claim {appPeer : PeerId} {result : DhtNetworkResult Score}
    (hhandler : state.handlers number = some handler)
    (hphase : handler.phase = .claiming appPeer result)
    (hnew : statement ∈ (state.claim config number handler appPeer result).store.statements) :
    statement ∈ state.store.statements ∨ Says config state statement (.handle number) := by
  rw [claim] at hnew
  split at hnew
  · exact .inl hnew
  · cases result with
    | nodesFound key nodes =>
      rcases mem_append.mp hnew with hmem | hmem
      · exact .inr ⟨handler, hhandler, .inr ⟨appPeer, key, nodes, hphase, hmem⟩⟩
      · exact .inl hmem
    | _ => exact .inl hnew

theorem Owned.says_of_handle (howned : Owned config state)
    (hhandler : state.handlers number = some handler)
    (hstep : state.handle config number handler = some next)
    (hnew : statement ∈ next.store.statements) :
    statement ∈ state.store.statements ∨ Says config state statement (.handle number) := by
  have hphase := howned.handler number handler hhandler
  rw [ManagerState.handle] at hstep
  cases hcase : handler.phase with
  | arrived topic =>
    simp only [hcase, some.injEq] at hstep
    rw [← hstep] at hnew
    split at hnew
    · exact .inl hnew
    · split at hnew <;> exact .inl hnew
  | updating appPeer =>
    simp only [hcase, some.injEq] at hstep
    rw [← hstep] at hnew
    exact .inl hnew
  | dispatching =>
    simp only [hcase, some.injEq] at hstep
    rw [← hstep] at hnew
    exact says_of_dispatch hhandler hcase hnew
  | serving task =>
    rw [hcase] at hphase
    cases task <;> simp only [hcase, some.injEq] at hstep <;> rw [← hstep] at hnew
    · exact .inl hnew
    · have hsame := (Task.Sound.act_step hphase howned.store).1.1
      exact .inl (hsame ▸ hnew)
  | claiming appPeer result =>
    simp only [hcase, some.injEq] at hstep
    rw [← hstep] at hnew
    exact says_of_claim hhandler hcase hnew
  | normalizing appPeer request key task =>
    rw [hcase] at hphase
    cases task <;> simp only [hcase, some.injEq] at hstep <;> rw [← hstep] at hnew
    · exact .inl hnew
    · have hsame := (Task.Sound.act_step hphase howned.store).1.1
      exact .inl (hsame ▸ hnew)
  | answering appPeer request result =>
    simp only [hcase, some.injEq] at hstep
    rw [← hstep, ManagerState.sendResponse] at hnew
    split at hnew
    · exact .inl hnew
    · split at hnew <;> exact .inl hnew
  | _ => simp [hcase] at hstep

/-- Statements come from nowhere else. -/
theorem Owned.told_by_peer (howned : Owned config state) {step : ManagerStep Score}
    (hstep : managerStep config state step = some next)
    (hnew : statement ∈ next.store.statements) :
    statement ∈ state.store.statements ∨ Says config state statement step := by
  cases step with
  | routing op =>
    simp only [managerStep, ite_none_left_eq_some, some.injEq] at hstep
    obtain ⟨-, rfl⟩ := hstep
    exact .inl hnew
  | dropReceiver request =>
    obtain ⟨pending, -, rfl⟩ := map_eq_some_iff.mp hstep
    exact .inl hnew
  | dropGuard request =>
    obtain ⟨pending, -, rfl⟩ := map_eq_some_iff.mp hstep
    exact .inl hnew
  | handle number =>
    obtain ⟨handler, hhandler, hhandle⟩ := bind_eq_some_iff.mp hstep
    exact howned.says_of_handle hhandler hhandle hnew
  | abandon number =>
    obtain ⟨handler, hhandler, habandon⟩ := bind_eq_some_iff.mp hstep
    simp only [ite_none_left_eq_some, some.injEq] at habandon
    obtain ⟨-, rfl⟩ := habandon
    exact .inl hnew
  | start job =>
    simp only [managerStep, ite_none_right_eq_some, some.injEq] at hstep
    rw [← hstep.2] at hnew
    exact (mem_append.mp hnew).symm
  | run number =>
    rw [managerStep] at hstep
    split at hstep
    · cases hstep
    · cases hstep
      exact .inl hnew
    · next update rest hjob =>
        cases hstep
        have hsame := ((howned.job number _ hjob).act_step howned.store).1.1
        exact .inl (hsame ▸ hnew)
  | hold node =>
    simp only [managerStep, ite_none_right_eq_some, some.injEq] at hstep
    obtain ⟨-, rfl⟩ := hstep
    exact .inl hnew
  | _ =>
    cases hstep
    exact .inl hnew

/-- Every statement on record was made by its owner in the run. -/
theorem reaches_heard {context : DialAddressContext} {now : ℕ}
    (hreaches : Reaches (managerStep config) (fun _ _ => True) (.initial config context now)
      state) (hmem : statement ∈ state.store.statements) :
    Heard config (.initial config context now) state statement := by
  induction hreaches with
  | refl => cases hmem
  | tail hbefore hallowed hstep ih =>
    rcases (reaches_owned hbefore).told_by_peer hstep hmem with hold | htold
    · obtain ⟨earlier, step, later, hearlier, hsays, hlater, hrest⟩ := ih hold
      exact ⟨earlier, step, later, hearlier, hsays, hlater, hrest.tail hallowed hstep⟩
    · exact ⟨_, _, _, hbefore, htold, hstep, .refl⟩

/-- While a peer with a publication stays in the table, the addresses stored for it
change only by what the peer itself says: a set that it sent as the authenticated sender,
newer than what is stored and with no signed set stored, or a record that verifies with
the peer as owner and is newer than the signed set that is stored, if any.  The addresses
stored afterwards are among those it named there. -/
theorem addresses_changed_by_owner (context : DialAddressContext) (now : ℕ)
    (hreaches : Reaches (managerStep config) (fun _ _ => True) (.initial config context now)
      state) (step : ManagerStep Score) (hstep : managerStep config state step = some next)
    (peer : PeerId) (hpublished : state.store.table.hasAddressPublication peer = true)
    (hbefore : (state.store.table.findNodeById peer).isSome)
    (hafter : (next.store.table.findNodeById peer).isSome)
    (hchanged : (next.store.table.findNodeById peer).map
        (fun node => (node.addresses, node.addressTypes)) ≠
      (state.store.table.findNodeById peer).map
        fun node => (node.addresses, node.addressTypes)) :
    (∃ statement, Heard config (.initial config context now) next statement ∧
      statement.owner = peer ∧
      state.store.table.publishSeqFor peer < statement.seq ∧
      state.store.table.transportAddressSet peer = none ∧
      Drawn statement.offered (nodeAddressesTyped next.store.table peer)) ∨
    ∃ record proof, SignedAddressRecord.verify config.wire config.signatures record =
        .ok proof ∧ proof.owner = peer ∧
      (∀ set, state.store.table.transportAddressSet peer = some set →
        set.seq < proof.sequence) ∧
      Drawn (recordPairs config.wire proof.records)
        (nodeAddressesTyped next.store.table peer) := by
  have howned := reaches_owned hreaches
  have hevolves := (howned.step hstep).2
  rcases hevolves.table.keepsView_or_republished howned.store hbefore hafter with
    hkeeps | ⟨publication, hvouched, hoverwrites, hrepresents⟩
  · exact absurd (hkeeps.record hpublished) hchanged
  · have hdrawn := nodeAddressesTyped_drawn hrepresents
    cases publication with
    | v1 seq typed =>
      obtain ⟨hseq, hstored, -⟩ := hoverwrites
      have hunsigned : state.store.table.transportAddressSet peer = none := by
        rw [transportAddressSet]
        cases hentry : state.store.table.addressPublications peer with
        | none => rfl
        | some stored => exact (hstored stored hentry).1
      have hnewer : state.store.table.publishSeqFor peer < seq := by
        rw [publishSeqFor]
        cases hentry : state.store.table.addressPublications peer with
        | none => exact Nat.pos_of_ne_zero hseq
        | some stored => exact (hstored stored hentry).2
      cases hvouched with
      | stated statement hmem howner hsame hoffered =>
        have hheard := reaches_heard (hreaches.tail trivial hstep) (hevolves.statements hmem)
        exact .inl ⟨statement, hheard, howner, hsame ▸ hnewer, hunsigned, hoffered.trans hdrawn⟩
      | signed proof hverified howner hsame hoffered =>
        obtain ⟨record, hverify⟩ := hverified
        refine .inr ⟨record, proof, hverify, howner, ?_, hoffered.trans hdrawn⟩
        intro set hset
        rw [hunsigned] at hset
        cases hset
    | v2 set native =>
      obtain ⟨proof, -, ⟨record, hverify⟩, howner, hsame, hoffered⟩ := hvouched
      refine .inr ⟨record, proof, hverify, howner, ?_, hoffered.trans hdrawn⟩
      intro stored hset
      rw [hsame]
      exact hoverwrites.2.1 stored hset

/-- The address that ends in this octet. -/
def octetAddress (octet : BitVec 8) : MultiAddr := .quic (.v4 (0xcb0071#24 ++ octet) 9000)

/-- A publication of one address. -/
def octetPublication (seq : ℕ) (octet : BitVec 8) : DhtNetworkMessage ℕ :=
  { messageId := "publish"
    messageType := .request
    payload := .publishAddressSet seq [(octetAddress octet, .direct)]
    result := none
    signedRecords := [] }

/-- Peer `1` has published under sequence `1`, and the handler of its next publication is
about to write. -/
def republishingSteps : List (ManagerStep ℕ) :=
  [.authenticate fun peer => peer == 1, .routing (.insert ⟨1, [octetAddress 1], [.direct], 0⟩ 0),
    .receive .v1 (octetPublication 1 2) 1 none,
    .handle 0, .handle 0, .handle 0, .handle 0, .handle 0,
    .receive .v1 (octetPublication 2 3) 1 none,
    .handle 1, .handle 1, .handle 1, .handle 1]

theorem republishingSteps_changed_by_owner :
    ∃ state next statement, managerStep lonelyManager state (.handle 1) = some next ∧
      (state.store.table.findNodeById 1).map NodeInfo.addresses = some [octetAddress 2] ∧
      (next.store.table.findNodeById 1).map NodeInfo.addresses = some [octetAddress 3] ∧
      Heard lonelyManager (.initial lonelyManager ⟨[]⟩ 0) next statement ∧
      statement.owner = 1 ∧ state.store.table.publishSeqFor 1 < statement.seq := by
  have hrun : ((run (managerStep lonelyManager) (fun _ _ => True)
      (.initial lonelyManager ⟨[]⟩ 0) republishingSteps).map fun state =>
        (state.store.table.hasAddressPublication 1,
          decide ((state.store.table.findNodeById 1).map NodeInfo.addresses =
            some [octetAddress 2]),
          (managerStep lonelyManager state (.handle 1)).map fun next =>
            decide ((next.store.table.findNodeById 1).map NodeInfo.addresses =
              some [octetAddress 3]))) = some (true, true, some true) := by
    decide +kernel
  obtain ⟨state, hstate, hobserved⟩ := map_eq_some_iff.mp hrun
  simp only [Prod.mk.injEq, map_eq_some_iff, decide_eq_true_eq] at hobserved
  obtain ⟨hpublished, ⟨before, hbefore, hold⟩, next, hstep, ⟨after, hafter, hnew⟩⟩ :=
    hobserved
  have hdifferent : after.addresses ≠ before.addresses := by
    rw [hold, hnew]
    decide
  rcases addresses_changed_by_owner ⟨[]⟩ 0 (reaches_of_run hstate) (.handle 1) hstep 1
      hpublished (by rw [hbefore]; rfl) (by rw [hafter]; rfl)
      (by rw [hbefore, hafter]; simp [hdifferent]) with
    ⟨statement, hheard, howner, hnewer, -⟩ | ⟨record, proof, hverify, -⟩
  · exact ⟨state, next, statement, hstep, by rw [hbefore, map_some, hold],
      by rw [hafter, map_some, hnew], hheard, howner, hnewer⟩
  · -- No record verifies here.
    rw [SignedAddressRecord.verify] at hverify
    split at hverify <;> cases hverify

end SaorsaCore.Manager
