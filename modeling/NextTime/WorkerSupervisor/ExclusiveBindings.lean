import NextTime.WorkerSupervisor.HandleBindings

/-
What the calls on the bindings file keep over any run, and when a binding can be taken over.
-/

namespace NextTime.WorkerSupervisor

open OwnProperties (assign without)

/-! ### Bindings by address -/

theorem addresses_assign (ip : String) (bound : Bound) (bindings : List Entry)
    (nodup : (bindings.map Prod.fst).Nodup) :
    ((assign ip bound bindings).map Prod.fst).Nodup ∧
      ∀ entry ∈ assign ip bound bindings, entry = (ip, bound) ∨ entry ∈ bindings := by
  induction bindings with
  | nil =>
      constructor
      · exact List.pairwise_singleton _ ip
      · intro entry isIn
        exact .inl (List.mem_singleton.mp isIn)
  | cons first bindings ih =>
      rw [List.map_cons, List.nodup_cons] at nodup
      obtain ⟨fresh, distinct⟩ := nodup
      obtain ⟨kept, members⟩ := ih distinct
      rw [assign]
      split
      next same =>
        constructor
        · rw [List.map_cons, List.nodup_cons]
          exact ⟨same ▸ fresh, distinct⟩
        · intro entry isIn
          rcases List.mem_cons.mp isIn with isNew | held
          · exact .inl isNew
          · exact .inr (List.mem_cons_of_mem _ held)
      next different =>
        constructor
        · rw [List.map_cons, List.nodup_cons]
          refine ⟨?_, kept⟩
          intro isIn
          obtain ⟨entry, member, sameKey⟩ := List.mem_map.mp isIn
          rcases members entry member with isNew | held
          · rw [isNew] at sameKey
            exact different sameKey.symm
          · exact fresh (sameKey ▸ List.mem_map_of_mem held)
        · intro entry isIn
          rcases List.mem_cons.mp isIn with isFirst | later
          · exact .inr (isFirst ▸ List.mem_cons_self)
          · rcases members entry later with isNew | held
            · exact .inl isNew
            · exact .inr (List.mem_cons_of_mem _ held)

theorem mem_of_lookup {bindings : List Entry} {ip : String} {bound : Bound}
    (found : bindings.lookup ip = some bound) : (ip, bound) ∈ bindings := by
  induction bindings with
  | nil => cases found
  | cons first bindings ih =>
      rw [List.lookup_cons] at found
      split at found
      next same =>
        rw [← Option.some.inj found, beq_iff_eq.mp same]
        exact List.mem_cons_self
      next => exact List.mem_cons_of_mem _ (ih found)

theorem numbered_get (bindings : List (String × HandleBinding)) : ∀ number : Nat,
    ∀ entry ∈ numbered number bindings, number ≤ entry.2.object ∧
      (numbered number bindings)[entry.2.object - number]? = some entry := by
  induction bindings with
  | nil => exact fun _ _ isIn => nomatch isIn
  | cons first bindings ih =>
      intro number entry isIn
      rcases List.mem_cons.mp isIn with isFirst | later
      · rw [isFirst]
        exact ⟨Nat.le_refl _, by rw [Nat.sub_self]; rfl⟩
      · obtain ⟨behind, found⟩ := ih (number + 1) entry later
        constructor
        · omega
        · have place : entry.2.object - number = entry.2.object - (number + 1) + 1 := by omega
          rw [numbered, place, List.getElem?_cons_succ]
          exact found

theorem addresses_numbered (bindings : List (String × HandleBinding)) : ∀ number : Nat,
    (numbered number bindings).map Prod.fst = bindings.map Prod.fst ∧
      plain (numbered number bindings) = bindings := by
  induction bindings with
  | nil => exact fun _ => ⟨rfl, rfl⟩
  | cons first bindings ih =>
      intro number
      obtain ⟨addresses, same⟩ := ih (number + 1)
      constructor
      · rw [numbered, List.map_cons, addresses, List.map_cons]
      · unfold plain at same
        rw [numbered, plain, List.map_cons, same]

/-! ### The holder of an address -/

theorem holderOf_some {state : Supervisor} {ip containerId holder : String} {bound : Bound}
    (held : state.holderOf ip containerId = some (bound, holder)) :
    state.bindings.lookup ip = some bound ∧ bound.binding.containerId = some holder ∧
      holder ≠ containerId := by
  unfold Supervisor.holderOf at held
  obtain ⟨read, found, inner⟩ := Option.bind_eq_some_iff.mp held
  obtain ⟨named, isNamed, last⟩ := Option.bind_eq_some_iff.mp inner
  split at last
  next => cases last
  next different =>
    obtain ⟨isBound, isHolder⟩ := Prod.mk.inj (Option.some.inj last)
    rw [← isBound, ← isHolder]
    exact ⟨found, isNamed, different⟩

theorem holderOf_none {state : Supervisor} {ip containerId : String}
    (free : state.holderOf ip containerId = none) {bound : Bound}
    (found : state.bindings.lookup ip = some bound) {other : String}
    (isOther : bound.binding.containerId = some other) : other = containerId := by
  rw [Supervisor.holderOf, found, Option.bind_some, isOther, Option.bind_some] at free
  by_contra different
  rw [if_neg different] at free
  cases free

/-! ### What holds in every state -/

/-- The view is the file, every entry is the object made with its number, and a container that
was seen not to run at an address does not run there. -/
structure Kept (state : Supervisor) : Prop where
  view : plain state.bindings = loadBindings state.file
  addresses : (state.bindings.map Prod.fst).Nodup
  made : ∀ entry ∈ state.bindings, state.made[entry.2.object]? = some entry
  judged : ∀ call ∈ state.retains, ∀ entry ∈ call.left ++ call.dead,
    state.made[entry.2.object]? = some entry
  stopped : ∀ place ∈ state.gone, place ∉ state.runs
  read : ∀ call ∈ state.binds, call.read.binding.containerId = some call.holder
  answered : ∀ call ∈ state.binds, call.answer = some false →
    (call.holder, call.ip) ∈ state.gone

namespace Kept

variable {state : Supervisor}

theorem started (file : BindingsFile) (runs : List (String × String))
    (distinct : ((loadBindings file).map Prod.fst).Nodup) :
    Kept (Supervisor.started file runs) := by
  obtain ⟨addresses, same⟩ := addresses_numbered (loadBindings file) 0
  constructor
  · exact same
  · change ((numbered 0 (loadBindings file)).map Prod.fst).Nodup
    rw [addresses]
    exact distinct
  · intro entry isIn
    exact (numbered_get (loadBindings file) 0 entry isIn).2
  · exact fun _ isIn => nomatch isIn
  · exact fun _ isIn => nomatch isIn
  · exact fun _ isIn => nomatch isIn
  · exact fun _ isIn => nomatch isIn

/-- A view that is written, or left when the write fails. -/
theorem commit (kept : Kept state) (lands : Bool) {next : List Entry}
    (addresses : (next.map Prod.fst).Nodup)
    (made : ∀ entry ∈ next, state.made[entry.2.object]? = some entry) :
    Kept (state.commit lands next) := by
  unfold Supervisor.commit
  cases lands with
  | true => exact { kept with view := rfl, addresses := addresses, made := made }
  | false => exact { kept with }

/-- An object more. -/
theorem makes (kept : Kept state) (entry : Entry) :
    Kept { state with made := state.made ++ [entry] } := by
  have still {number : Nat} {held : Entry} (found : state.made[number]? = some held) :
      (state.made ++ [entry])[number]? = some held := by
    rw [List.getElem?_append_left]
    · exact found
    · exact (List.getElem?_eq_some_iff.mp found).1
  exact
    { kept with
      made := fun held isIn => still (kept.made held isIn)
      judged := fun call isCall held isIn => still (kept.judged call isCall held isIn) }

theorem bind (kept : Kept state) (ip : String) (binding : NewBinding) (now : Nat)
    (lands : Bool) : Kept (state.bind ip binding now lands) := by
  unfold Supervisor.bind
  simp only
  obtain ⟨addresses, members⟩ := addresses_assign ip
    ⟨state.made.length, ⟨binding.handle, binding.sourceId, some binding.containerId, now⟩⟩
    state.bindings kept.addresses
  refine commit (kept.makes _) lands addresses ?_
  intro entry isIn
  rcases members entry isIn with isNew | held
  · rw [isNew]
    simp only
    rw [List.getElem?_append_right (Nat.le_refl _), Nat.sub_self]
    rfl
  · exact (kept.makes _).made entry held

/-- A view with fewer entries. -/
theorem filtered (kept : Kept state) (lands : Bool) (keeps : Entry → Bool) :
    Kept (state.commit lands (state.bindings.filter keeps)) := by
  apply kept.commit
  · exact kept.addresses.sublist (List.filter_sublist.map _)
  · intro entry isIn
    exact kept.made entry (List.mem_of_mem_filter isIn)

/-- Fewer calls that wait. -/
theorem fewer (kept : Kept state) {binds : List BindCall} {retains : List RetainCall}
    (fewerBinds : ∀ call ∈ binds, call ∈ state.binds)
    (fewerRetains : ∀ call ∈ retains, call ∈ state.retains) (result : CallResult) :
    Kept { state with binds := binds, retains := retains, result := result } :=
  { kept with
    judged := fun call isCall => kept.judged call (fewerRetains call isCall)
    read := fun call isCall => kept.read call (fewerBinds call isCall)
    answered := fun call isCall => kept.answered call (fewerBinds call isCall) }

theorem bindExclusive (kept : Kept state) (ip : String) (binding : NewBinding) (now : Nat)
    (lands : Bool) : Kept (state.bindExclusive ip binding now lands) := by
  unfold Supervisor.bindExclusive
  split
  next bound holder held =>
    have isHolder := (holderOf_some held).2.1
    exact
      { kept with
        read := by
          intro call isCall
          rcases List.mem_append.mp isCall with waits | isNew
          · exact kept.read call waits
          · rw [List.mem_singleton.mp isNew]
            exact isHolder
        answered := by
          intro call isCall denied
          rcases List.mem_append.mp isCall with waits | isNew
          · exact kept.answered call waits denied
          · rw [List.mem_singleton.mp isNew] at denied
            cases denied }
  next => exact kept.bind ip binding now lands

theorem inspect (kept : Kept state) {call : BindCall} {next : Supervisor}
    (moved : state.inspect call = some next) : Kept next := by
  unfold Supervisor.inspect at moved
  split at moved
  next waits =>
    rw [← Option.some.inj moved]
    have still {other : BindCall}
        (isCall : other ∈ state.binds.erase call ++
          [{ call with answer := some (decide ((call.holder, call.ip) ∈ state.runs)) }]) :
        other ∈ state.binds ∨ other =
          { call with answer := some (decide ((call.holder, call.ip) ∈ state.runs)) } := by
      rcases List.mem_append.mp isCall with held | isNew
      · exact .inl (List.mem_of_mem_erase held)
      · exact .inr (List.mem_singleton.mp isNew)
    by_cases runs : (call.holder, call.ip) ∈ state.runs
    · simp only [runs, decide_true, if_true] at still ⊢
      exact
        { kept with
          read := by
            intro other isCall
            rcases still isCall with held | isNew
            · exact kept.read other held
            · rw [isNew]
              exact kept.read call waits.1
          answered := by
            intro other isCall denied
            rcases still isCall with held | isNew
            · exact kept.answered other held denied
            · rw [isNew] at denied
              cases denied }
    · simp only [runs, decide_false, Bool.false_eq_true, if_false] at still ⊢
      exact
        { kept with
          stopped := by
            intro place isGone
            rcases List.mem_append.mp isGone with held | isNew
            · exact kept.stopped place held
            · rw [List.mem_singleton.mp isNew]
              exact runs
          read := by
            intro other isCall
            rcases still isCall with held | isNew
            · exact kept.read other held
            · rw [isNew]
              exact kept.read call waits.1
          answered := by
            intro other isCall denied
            rcases still isCall with held | isNew
            · exact List.mem_append_left _ (kept.answered other held denied)
            · rw [isNew]
              exact List.mem_append_right _ (List.mem_singleton_self _) }
  next => cases moved

theorem goOn (kept : Kept state) {call : BindCall} {now : Nat} {lands : Bool}
    {next : Supervisor} (moved : state.goOn call now lands = some next) : Kept next := by
  unfold Supervisor.goOn at moved
  split at moved
  next =>
    have fewer := @Kept.fewer state kept (state.binds.erase call) state.retains
      (fun _ => List.mem_of_mem_erase) (fun _ isIn => isIn)
    simp only at moved
    split at moved
    next =>
      rw [← Option.some.inj moved]
      exact fewer .threw
    next =>
      rw [← Option.some.inj moved]
      exact (fewer state.result).bind call.ip call.binding now lands
    next => cases moved
  next => cases moved

theorem unbind (kept : Kept state) (ip containerId : String) (lands : Bool) :
    Kept (state.unbind ip containerId lands) := by
  unfold Supervisor.unbind
  split
  next => exact { kept with }
  next =>
    split
    next => exact { kept with }
    next => exact kept.filtered lands fun entry => decide (entry.1 ≠ ip)

theorem drop (kept : Kept state) (dead : List Entry) (lands : Bool) :
    Kept (state.drop dead lands) := by
  unfold Supervisor.drop
  split
  next => exact { kept with }
  next => exact kept.filtered lands fun entry => decide (entry.1 ∉ state.droppedOf dead)

theorem retainLive (kept : Kept state) (lands : Bool) : Kept (state.retainLive lands) := by
  unfold Supervisor.retainLive
  split
  next => exact kept.drop [] lands
  next =>
    exact
      { kept with
        judged := by
          intro call isCall
          rcases List.mem_append.mp isCall with held | isNew
          · exact kept.judged call held
          · rw [List.mem_singleton.mp isNew, List.append_nil]
            exact kept.made }

theorem judge (kept : Kept state) {call : RetainCall} {isLive lands : Bool} {next : Supervisor}
    (moved : state.judge call isLive lands = some next) : Kept next := by
  unfold Supervisor.judge at moved
  split at moved
  next isCall =>
    split at moved
    next => cases moved
    next entry left isLeft =>
      have fewer := @Kept.fewer state kept state.binds (state.retains.erase call)
        (fun _ isIn => isIn) (fun _ => List.mem_of_mem_erase)
      simp only at moved
      split at moved
      next =>
        rw [← Option.some.inj moved]
        exact (fewer state.result).drop _ lands
      next =>
        rw [← Option.some.inj moved]
        have judged := kept.judged call isCall
        rw [isLeft] at judged
        exact
          { fewer state.result with
            judged := by
              intro other isOther
              rcases List.mem_append.mp isOther with held | isNew
              · exact (fewer state.result).judged other held
              · rw [List.mem_singleton.mp isNew]
                intro held isHeld
                apply judged held
                rcases List.mem_append.mp isHeld with later | dead
                · exact List.mem_append_left _ (List.mem_cons_of_mem _ later)
                · cases isLive with
                  | true => exact List.mem_append_right _ dead
                  | false =>
                      rcases List.mem_append.mp dead with before | isEntry
                      · exact List.mem_append_right _ before
                      · rw [List.mem_singleton.mp isEntry]
                        exact List.mem_append_left _ List.mem_cons_self }
  next => cases moved

theorem step (kept : Kept state) {label : SupervisorLabel} {next : Supervisor}
    (moved : state.step label = some next) : Kept next := by
  cases label with
  | bindExclusive ip binding now lands =>
      rw [← Option.some.inj moved]
      exact kept.bindExclusive ip binding now lands
  | inspect call => exact kept.inspect moved
  | goOn call now lands => exact kept.goOn moved
  | inspectFails call =>
      simp only [Supervisor.step] at moved
      split at moved
      next =>
        rw [← Option.some.inj moved]
        exact kept.fewer (fun _ => List.mem_of_mem_erase) (fun _ isIn => isIn) .threw
      next => cases moved
  | unbind ip containerId lands =>
      rw [← Option.some.inj moved]
      exact kept.unbind ip containerId lands
  | retainLive lands =>
      rw [← Option.some.inj moved]
      exact kept.retainLive lands
  | judge call isLive lands => exact kept.judge moved
  | judgeFails call =>
      simp only [Supervisor.step] at moved
      split at moved
      next =>
        rw [← Option.some.inj moved]
        exact kept.fewer (fun _ isIn => isIn) (fun _ => List.mem_of_mem_erase) .threw
      next => cases moved
  | start containerId ip =>
      simp only [Supervisor.step] at moved
      split at moved
      next => cases moved
      next notGone =>
        rw [← Option.some.inj moved]
        exact
          { kept with
            stopped := by
              intro place isGone isRunning
              rcases List.mem_append.mp isRunning with held | isNew
              · exact kept.stopped place isGone held
              · rw [List.mem_singleton.mp isNew] at isGone
                exact notGone isGone }
  | stop containerId ip =>
      rw [← Option.some.inj moved]
      exact
        { kept with
          stopped := by
            intro place isGone isRunning
            obtain ⟨running, other⟩ := List.mem_filter.mp isRunning
            rcases List.mem_append.mp isGone with held | isNew
            · exact kept.stopped place held running
            · exact of_decide_eq_true other (List.mem_singleton.mp isNew)
          answered := fun call isCall denied =>
            List.mem_append_left _ (kept.answered call isCall denied) }

end Kept

/-! ### What one step may change -/

/-- The binding is no longer what is bound at the address. -/
def Removes (state next : Supervisor) (ip : String) (bound : Bound) : Prop :=
  state.bindings.lookup ip = some bound ∧ next.bindings.lookup ip ≠ some bound

/-- The address and the container that a step of `bindExclusive` is for. -/
def SupervisorLabel.bindsFor : SupervisorLabel → Option (String × String)
  | .bindExclusive ip binding _ _ => some (ip, binding.containerId)
  | .goOn call _ _ => some (call.ip, call.binding.containerId)
  | _ => none

/-- Nothing is taken from a container that lives: every call removes what is its own, what was
judged dead, or what no running container holds; a call that throws or waits changes nothing. -/
structure StepKeeps (state : Supervisor) (label : SupervisorLabel) (next : Supervisor) : Prop where
  exclusive : ∀ ip containerId, label.bindsFor = some (ip, containerId) →
    ∀ address bound, Removes state next address bound → address = ip ∧
      ∀ other, bound.binding.containerId = some other → other ≠ containerId →
        (other, ip) ∉ state.runs
  unbinds : ∀ ip containerId lands, label = .unbind ip containerId lands →
    ∀ address bound, Removes state next address bound → address = ip ∧
      ∀ other, bound.binding.containerId = some other → other = containerId
  retains : ∀ call isLive lands, label = .judge call isLive lands →
    ∀ address bound, Removes state next address bound →
      (address, bound) ∈ call.dead ∨
        (isLive = false ∧ call.left.head? = some (address, bound))
  throws : next.result ≠ .returned → next.file = state.file ∧ next.bindings = state.bindings

/-- Where a call goes on because the holder it read is gone, the address was not bound to another
container while it waited: the binding it read is still there, or none, or its own. -/
def StillRead (state : Supervisor) : SupervisorLabel → Prop
  | .goOn call _ lands => lands = true → call.answer = some false →
      ∀ bound ∈ state.bindings.lookup call.ip,
        bound = call.read ∨ bound.binding.containerId = none ∨
          bound.binding.containerId = some call.binding.containerId
  | _ => True

theorem Removes.changes {state next : Supervisor} {ip : String} {bound : Bound}
    (removes : Removes state next ip bound) (same : next.bindings = state.bindings) : False :=
  removes.2 (same ▸ removes.1)

/-- What a bind removes is at its address, and was there before. -/
theorem Removes.of_bind {state : Supervisor} {ip : String} {binding : NewBinding} {now : Nat}
    {lands : Bool} {address : String} {bound : Bound}
    (removes : Removes state (state.bind ip binding now lands) address bound) :
    lands = true ∧ address = ip := by
  unfold Supervisor.bind Supervisor.commit at removes
  cases lands with
  | false => exact (removes.changes rfl).elim
  | true =>
      constructor
      · rfl
      · by_contra different
        apply removes.2
        simp only [if_true]
        rw [OwnProperties.lookup_assign_of_ne different]
        exact removes.1

theorem Removes.of_drop {state : Supervisor} {dead : List Entry} {lands : Bool} {address : String}
    {bound : Bound} (kept : Kept state)
    (judged : ∀ entry ∈ dead, state.made[entry.2.object]? = some entry)
    (removes : Removes state (state.drop dead lands) address bound) : (address, bound) ∈ dead := by
  unfold Supervisor.drop at removes
  split at removes
  next => exact (removes.changes rfl).elim
  next =>
    unfold Supervisor.commit at removes
    cases lands with
    | false => exact (removes.changes rfl).elim
    | true =>
        obtain ⟨before, after⟩ := removes
        simp only [if_true] at after
        rw [OwnProperties.lookup_filter fun key => decide (key ∉ state.droppedOf dead)] at after
        have isDropped : address ∈ state.droppedOf dead := by
          by_contra stays
          rw [if_pos (decide_eq_true stays)] at after
          exact after before
        obtain ⟨entry, isIn, isAddress⟩ := List.mem_map.mp isDropped
        obtain ⟨isDead, sameObject⟩ := List.mem_filter.mp isIn
        rw [decide_eq_true_eq, isAddress, before, Option.map_some, Option.some.injEq] at sameObject
        -- One object has one number, so the entry that was judged is the one that is there.
        have there := kept.made (address, bound) (mem_of_lookup before)
        have judgedEntry := judged entry isDead
        rw [← sameObject, there] at judgedEntry
        rw [Option.some.inj judgedEntry]
        exact isDead

namespace Kept

variable {state next : Supervisor}

theorem removes_exclusive (kept : Kept state) {label : SupervisorLabel}
    (still : StillRead state label) (moved : state.step label = some next)
    {ip containerId : String} (isBind : label.bindsFor = some (ip, containerId))
    {address : String} {bound : Bound} (removes : Removes state next address bound) :
    address = ip ∧ ∀ other, bound.binding.containerId = some other → other ≠ containerId →
      (other, ip) ∉ state.runs := by
  cases label with
  | bindExclusive address' binding now lands =>
      obtain ⟨isIp, isContainer⟩ := Prod.mk.inj (Option.some.inj isBind)
      rw [← isIp, ← isContainer]
      rw [← Option.some.inj moved] at removes
      simp only [Supervisor.bindExclusive] at removes
      split at removes
      next => exact (removes.changes rfl).elim
      next free =>
        have sameAddress := removes.of_bind.2
        have found := removes.1
        rw [sameAddress] at found
        constructor
        · exact sameAddress
        · intro other isOther different
          exact absurd (holderOf_none free found isOther) different
  | goOn call now lands =>
      obtain ⟨isIp, isContainer⟩ := Prod.mk.inj (Option.some.inj isBind)
      rw [← isIp, ← isContainer]
      simp only [Supervisor.step, Supervisor.goOn] at moved
      split at moved
      next isCall =>
        split at moved
        next =>
          rw [← Option.some.inj moved] at removes
          exact (removes.changes rfl).elim
        next denied =>
          rw [← Option.some.inj moved] at removes
          have bindRemoves : Removes { state with binds := state.binds.erase call }
              (Supervisor.bind { state with binds := state.binds.erase call } call.ip
                call.binding now lands) address bound := removes
          obtain ⟨isLanded, sameAddress⟩ := bindRemoves.of_bind
          have found := removes.1
          rw [sameAddress] at found
          constructor
          · exact sameAddress
          · intro other isOther different
            rcases still isLanded denied bound found with isRead | unnamed | own
            · -- The holder that was read: Docker did not find it here.
              have isHolder := kept.read call isCall
              rw [← isRead, isOther, Option.some.injEq] at isHolder
              rw [isHolder]
              exact kept.stopped _ (kept.answered call isCall denied)
            · rw [isOther] at unnamed
              cases unnamed
            · rw [isOther, Option.some.injEq] at own
              exact absurd own different
        next => cases moved
      next => cases moved
  | inspect call => cases isBind
  | inspectFails call => cases isBind
  | unbind ip' containerId' lands => cases isBind
  | retainLive lands => cases isBind
  | judge call isLive lands => cases isBind
  | judgeFails call => cases isBind
  | start containerId' ip' => cases isBind
  | stop containerId' ip' => cases isBind

theorem removes_unbind (ip containerId : String) (lands : Bool) {address : String} {bound : Bound}
    (removes : Removes state (state.unbind ip containerId lands) address bound) :
    address = ip ∧ ∀ other, bound.binding.containerId = some other → other = containerId := by
  unfold Supervisor.unbind at removes
  split at removes
  next => exact (removes.changes rfl).elim
  next held found =>
    split at removes
    next => exact (removes.changes rfl).elim
    next own =>
      unfold Supervisor.commit at removes
      cases lands with
      | false => exact (removes.changes rfl).elim
      | true =>
          obtain ⟨before, after⟩ := removes
          simp only [if_true] at after
          by_cases same : address = ip
          · rw [same, found, Option.some.injEq] at before
            constructor
            · exact same
            · intro other isOther
              by_contra different
              apply own
              rw [before, isOther]
              constructor
              · exact Option.some_ne_none other
              · exact fun isOwn => different (Option.some.inj isOwn)
          · rw [OwnProperties.lookup_without_of_ne same] at after
            exact absurd before after

theorem removes_judge (kept : Kept state) {call : RetainCall} {isLive lands : Bool}
    (moved : state.judge call isLive lands = some next) {address : String} {bound : Bound}
    (removes : Removes state next address bound) :
    (address, bound) ∈ call.dead ∨ (isLive = false ∧ call.left.head? = some (address, bound)) := by
  unfold Supervisor.judge at moved
  split at moved
  next isCall =>
    split at moved
    next => cases moved
    next entry left isLeft =>
      have judged := kept.judged call isCall
      rw [isLeft] at judged ⊢
      simp only at moved
      split at moved
      next =>
        rw [← Option.some.inj moved] at removes
        have fewer := @Kept.fewer state kept state.binds (state.retains.erase call)
          (fun _ isIn => isIn) (fun _ => List.mem_of_mem_erase) state.result
        cases isLive with
        | true =>
            apply Or.inl
            apply Removes.of_drop fewer _ removes
            intro held isHeld
            exact judged held (List.mem_append_right _ isHeld)
        | false =>
            have isDead : (address, bound) ∈ call.dead ++ [entry] := by
              apply Removes.of_drop fewer _ removes
              intro held isHeld
              rcases List.mem_append.mp isHeld with before | isEntry
              · exact judged held (List.mem_append_right _ before)
              · rw [List.mem_singleton.mp isEntry]
                exact judged entry (List.mem_append_left _ List.mem_cons_self)
            rcases List.mem_append.mp isDead with before | isEntry
            · exact .inl before
            · rw [List.mem_singleton.mp isEntry]
              exact .inr ⟨rfl, rfl⟩
      next =>
        rw [← Option.some.inj moved] at removes
        exact (removes.changes rfl).elim
  next => cases moved

/-- A call that does not return has changed nothing. -/
theorem commit_throws (lands : Bool) (entries : List Entry)
    (threw : (state.commit lands entries).result ≠ .returned) :
    (state.commit lands entries).file = state.file ∧
      (state.commit lands entries).bindings = state.bindings := by
  unfold Supervisor.commit at threw ⊢
  cases lands with
  | true => exact absurd rfl threw
  | false => exact ⟨rfl, rfl⟩

theorem drop_throws (dead : List Entry) (lands : Bool)
    (threw : (state.drop dead lands).result ≠ .returned) :
    (state.drop dead lands).file = state.file ∧
      (state.drop dead lands).bindings = state.bindings := by
  unfold Supervisor.drop at threw ⊢
  split at threw
  next => exact absurd rfl threw
  next some =>
    rw [if_neg some]
    exact commit_throws lands _ threw

theorem step_throws {label : SupervisorLabel} (moved : state.step label = some next)
    (threw : next.result ≠ .returned) :
    next.file = state.file ∧ next.bindings = state.bindings := by
  cases label with
  | bindExclusive ip binding now lands =>
      rw [← Option.some.inj moved] at threw ⊢
      simp only [Supervisor.bindExclusive] at threw ⊢
      split at threw
      next => exact ⟨rfl, rfl⟩
      next => exact commit_throws lands _ threw
  | inspect call =>
      simp only [Supervisor.step, Supervisor.inspect] at moved
      split at moved
      next => rw [← Option.some.inj moved]; exact ⟨rfl, rfl⟩
      next => cases moved
  | goOn call now lands =>
      simp only [Supervisor.step, Supervisor.goOn] at moved
      split at moved
      next =>
        split at moved
        next => rw [← Option.some.inj moved]; exact ⟨rfl, rfl⟩
        next =>
          rw [← Option.some.inj moved] at threw ⊢
          exact commit_throws lands _ threw
        next => cases moved
      next => cases moved
  | inspectFails call =>
      simp only [Supervisor.step] at moved
      split at moved
      next => rw [← Option.some.inj moved]; exact ⟨rfl, rfl⟩
      next => cases moved
  | unbind ip containerId lands =>
      rw [← Option.some.inj moved] at threw ⊢
      simp only [Supervisor.unbind] at threw ⊢
      split at threw
      next => exact ⟨rfl, rfl⟩
      next =>
        split at threw
        next own => rw [if_pos own]; exact ⟨rfl, rfl⟩
        next other => rw [if_neg other]; exact commit_throws lands _ threw
  | retainLive lands =>
      rw [← Option.some.inj moved] at threw ⊢
      simp only [Supervisor.retainLive] at threw ⊢
      split at threw
      next nothing => rw [if_pos nothing]; exact drop_throws [] lands threw
      next some => rw [if_neg some]; exact ⟨rfl, rfl⟩
  | judge call isLive lands =>
      simp only [Supervisor.step, Supervisor.judge] at moved
      split at moved
      next =>
        split at moved
        next => cases moved
        next =>
          split at moved
          next =>
            rw [← Option.some.inj moved] at threw ⊢
            exact drop_throws _ lands threw
          next => rw [← Option.some.inj moved]; exact ⟨rfl, rfl⟩
      next => cases moved
  | judgeFails call =>
      simp only [Supervisor.step] at moved
      split at moved
      next => rw [← Option.some.inj moved]; exact ⟨rfl, rfl⟩
      next => cases moved
  | start containerId ip =>
      simp only [Supervisor.step] at moved
      split at moved
      next => cases moved
      next => rw [← Option.some.inj moved]; exact ⟨rfl, rfl⟩
  | stop containerId ip =>
      rw [← Option.some.inj moved]
      exact ⟨rfl, rfl⟩

theorem stepKeeps (kept : Kept state) {label : SupervisorLabel} (still : StillRead state label)
    (moved : state.step label = some next) : StepKeeps state label next where
  exclusive _ _ isBind _ _ removes := kept.removes_exclusive still moved isBind removes
  unbinds ip containerId lands isUnbind _ _ removes := by
    rw [isUnbind] at moved
    rw [← Option.some.inj moved] at removes
    exact removes_unbind ip containerId lands removes
  retains call isLive lands isJudge _ _ removes := by
    rw [isJudge] at moved
    exact kept.removes_judge moved removes
  throws := step_throws moved

end Kept

/-! ### Any run -/

/-- The view is the file, and a step keeps every binding that is another's. -/
def Keeps (state : Supervisor) (label : SupervisorLabel) : Prop :=
  plain state.bindings = loadBindings state.file ∧
    ∀ next, state.step label = some next → StepKeeps state label next

/-- Where no call goes on behind an address bound anew, a live container keeps its binding. -/
theorem keeps_of_stillRead {start state : Supervisor} {labels : List SupervisorLabel}
    (isStart : handleBindings.initial start)
    (still : handleBindings.Allowed StillRead start labels)
    (ran : handleBindings.run start labels = some state) :
    handleBindings.Allowed Keeps start labels ∧
      plain state.bindings = loadBindings state.file := by
  obtain ⟨file, runs, distinct, rfl⟩ := isStart
  have kept := Kept.started file runs distinct
  have preserved : handleBindings.Preserved Kept := fun _ _ _ held moved => held.step moved
  constructor
  · apply LabelledRun.System.Allowed.implies handleBindings preserved _ kept still
    intro state label held allowed
    exact ⟨held.view, fun next moved => held.stepKeeps allowed moved⟩
  · exact (handleBindings.run_preserves preserved kept ran).view

/-- The binding a crashed container left at an address. -/
def leftBinding : HandleBinding := ⟨"handle-x", "entry:x", some "x", 0⟩

def bindOf (containerId : String) : NewBinding := ⟨"handle-" ++ containerId, "entry", containerId⟩

/-- A call that read the binding which was left. -/
def waitingBind (containerId : String) (answer : Option Bool) : BindCall :=
  ⟨"10.0.0.5", bindOf containerId, ⟨0, leftBinding⟩, "x", answer⟩

/-- The address of a crashed container, with two containers that run there. -/
def crashed : Supervisor :=
  .started (.holds [("10.0.0.5", leftBinding)]) [("a", "10.0.0.5"), ("b", "10.0.0.5")]

theorem crashed_initial : handleBindings.initial crashed :=
  ⟨.holds [("10.0.0.5", leftBinding)], [("a", "10.0.0.5"), ("b", "10.0.0.5")],
    List.pairwise_singleton _ _, rfl⟩

/-- One call takes the address over. -/
def takeOver : List SupervisorLabel :=
  [.bindExclusive "10.0.0.5" (bindOf "a") 1 true, .inspect (waitingBind "a" none),
    .goOn (waitingBind "a" (some false)) 2 true]

theorem keeps_of_stillRead_takeOver :
    ∃ state, handleBindings.run crashed takeOver = some state ∧
      handleBindings.Allowed Keeps crashed takeOver ∧
      plain state.bindings = loadBindings state.file := by
  have ran : (handleBindings.run crashed takeOver).isSome = true := rfl
  obtain ⟨state, isState⟩ := Option.isSome_iff_exists.mp ran
  have still : handleBindings.Allowed StillRead crashed takeOver := by
    refine ⟨trivial, trivial, ?_, trivial⟩
    intro _ _ bound found
    exact .inl (Option.some.inj found).symm
  exact ⟨state, isState, keeps_of_stillRead crashed_initial still isState⟩

/-- Two calls that read the same binding, and the second goes on behind the first. -/
def takeOverTwice : List SupervisorLabel :=
  [.bindExclusive "10.0.0.5" (bindOf "a") 1 true, .bindExclusive "10.0.0.5" (bindOf "b") 1 true,
    .inspect (waitingBind "a" none), .inspect (waitingBind "b" none),
    .goOn (waitingBind "b" (some false)) 2 true]

/-- The binding of a container that runs at the address is replaced by another's. -/
theorem not_keeps_takeOverTwice :
    ∃ state next, handleBindings.initial crashed ∧
      handleBindings.run crashed takeOverTwice = some state ∧
      state.step (.goOn (waitingBind "a" (some false)) 3 true) = some next ∧
      ¬StepKeeps state (.goOn (waitingBind "a" (some false)) 3 true) next := by
  refine ⟨_, _, crashed_initial, rfl, rfl, ?_⟩
  intro keeps
  have replaced := keeps.exclusive "10.0.0.5" "a" rfl "10.0.0.5"
    ⟨1, ⟨"handle-b", "entry", some "b", 2⟩⟩ ⟨rfl, by decide⟩
  exact replaced.2 "b" rfl (by decide) (by decide)

end NextTime.WorkerSupervisor
