import Steering.Refresh.Arrival
/-! Where records and latencies come from: each stems from a call that was made, and from the reply
that is given to this call or that arrived for it. -/

namespace Steering.Refresh

variable (t : Responder) (heard : List Arrival) (seen : List (Nat × Entry))

/-- Whether the fetch of an address was made at a moment for a place of a phase and came to an
outcome: what is answered to it, or what a reply said that arrived for it. -/
structure Fetched (began deadline place : Nat) (address : Net.Ipv4)
    (outcome : Outcome FetchFailure PopStatus) : Prop where
  made : (began, .fetched address) ∈ seen
  answered : outcome = ((t.fetch began place address).call .deadlineExceeded began deadline).outcome ∨
    .fetched deadline place outcome ∈ heard

/-- Whether a measurement by the prober of a region was made at a moment for a place of a phase and
came to an outcome: what is answered to it, or what a reply said that arrived for it. -/
structure Measured (region deadline asked place : Nat) (endpoint : String)
    (outcome : Outcome MeasureFailure Binary64) : Prop where
  made : (asked, .measured region endpoint) ∈ seen
  answered :
    outcome =
        ((t.measure asked region place endpoint).call .deadlineExceeded asked deadline).outcome ∨
      .measured deadline region place outcome ∈ heard

/-- The complete result of a status phase: the record at every place comes from the fetch of the
address at this place. -/
structure StatusBatch (plan : Plan) (began : Nat) (statuses : List PopStatus) : Prop where
  length : statuses.length = plan.addresses.length
  record : ∀ place address status, plan.addresses[place]? = some address →
    statuses[place]? = some status → ∃ outcome, recordOf outcome = some status ∧
      Fetched t heard seen began (began + plan.statusTimeout) place address outcome

/-- The result of one pass of a region over endpoints, of which the last was measured at a moment:
they are measured one after another, and each gives the latency at its place. -/
inductive Measurements (region began deadline : Nat) : List String → List Binary64 → Nat → Prop
  | none : Measurements region began deadline [] [] began
  | next {endpoints : List String} {latencies : List Binary64} {last asked : Nat}
      {endpoint : String} {outcome : Outcome MeasureFailure Binary64} {latency : Binary64}
      (before : Measurements region began deadline endpoints latencies last) (later : last ≤ asked)
      (measured : Measured t heard seen region deadline asked latencies.length endpoint outcome)
      (accepted : latencyOf outcome = some latency) :
      Measurements region began deadline (endpoints ++ [endpoint]) (latencies ++ [latency]) asked

/-- The complete result of one measuring pass of a region over all endpoints, in a latency phase
that began at a moment. -/
def LatencyBatch (plan : Plan) (region began : Nat) (latencies : List Binary64) : Prop :=
  ∃ last, Measurements t heard seen region began (began + plan.latencyTimeout) plan.endpoints
    latencies last

/-- The fetch of one PoP as far as it has come by now. -/
inductive Slot.Sound (began deadline now place : Nat) (address : Net.Ipv4) : Slot → Prop
  | waiting {call : Call FetchFailure PopStatus}
      (fetched : Fetched t heard seen began deadline place address call.outcome)
      (bounded : call.due ≤ max now deadline) :
      Sound began deadline now place address (.waiting call)
  | done {outcome : Outcome FetchFailure PopStatus} {status : PopStatus}
      (fetched : Fetched t heard seen began deadline place address outcome)
      (record : recordOf outcome = some status) :
      Sound began deadline now place address (.done status)

/-- The measurements of one region as far as they have come by now. -/
inductive Pass.Sound (endpoints : List String) (began deadline now region : Nat) : Pass → Prop
  | waiting {measured remaining : List String} {endpoint : String} {latencies : List Binary64}
      {last asked : Nat} {call : Call MeasureFailure Binary64}
      (split : endpoints = measured ++ endpoint :: remaining)
      (before : Measurements t heard seen region began deadline measured latencies last)
      (later : last ≤ asked) (past : asked ≤ now)
      (current :
        Measured t heard seen region deadline asked latencies.length endpoint call.outcome)
      (bounded : call.due ≤ max now deadline) :
      Sound endpoints began deadline now region (.waiting latencies call remaining)
  | finished {latencies : List Binary64} {last : Nat}
      (whole : Measurements t heard seen region began deadline endpoints latencies last) :
      Sound endpoints began deadline now region (.finished latencies)

variable {t heard seen}

section Monotone

variable {moreHeard : List Arrival} {moreSeen : List (Nat × Entry)}

theorem Fetched.mono (hears : heard ⊆ moreHeard) (sees : seen ⊆ moreSeen)
    {began deadline place : Nat} {address : Net.Ipv4} {outcome : Outcome FetchFailure PopStatus}
    (fetched : Fetched t heard seen began deadline place address outcome) :
    Fetched t moreHeard moreSeen began deadline place address outcome :=
  ⟨sees fetched.made, fetched.answered.imp_right (hears ·)⟩

theorem Measured.mono (hears : heard ⊆ moreHeard) (sees : seen ⊆ moreSeen)
    {region deadline asked place : Nat} {endpoint : String}
    {outcome : Outcome MeasureFailure Binary64}
    (measured : Measured t heard seen region deadline asked place endpoint outcome) :
    Measured t moreHeard moreSeen region deadline asked place endpoint outcome :=
  ⟨sees measured.made, measured.answered.imp_right (hears ·)⟩

theorem StatusBatch.mono (hears : heard ⊆ moreHeard) (sees : seen ⊆ moreSeen) {plan : Plan}
    {began : Nat} {statuses : List PopStatus}
    (batch : StatusBatch t heard seen plan began statuses) :
    StatusBatch t moreHeard moreSeen plan began statuses where
  length := batch.length
  record place address status isAddress isStatus := by
    obtain ⟨outcome, record, fetched⟩ := batch.record place address status isAddress isStatus
    exact ⟨outcome, record, fetched.mono hears sees⟩

theorem Measurements.mono (hears : heard ⊆ moreHeard) (sees : seen ⊆ moreSeen)
    {region began deadline last : Nat} {endpoints : List String} {latencies : List Binary64}
    (measurements : Measurements t heard seen region began deadline endpoints latencies last) :
    Measurements t moreHeard moreSeen region began deadline endpoints latencies last := by
  induction measurements with
  | none => exact .none
  | next _ later measured accepted ih => exact .next ih later (measured.mono hears sees) accepted

theorem Slot.Sound.mono (hears : heard ⊆ moreHeard) (sees : seen ⊆ moreSeen)
    {began deadline now later place : Nat} (passed : now ≤ later) {address : Net.Ipv4}
    {slot : Slot} (sound : slot.Sound t heard seen began deadline now place address) :
    slot.Sound t moreHeard moreSeen began deadline later place address := by
  cases sound with
  | waiting fetched bounded =>
    exact .waiting (fetched.mono hears sees) (by omega)
  | done fetched record => exact .done (fetched.mono hears sees) record

theorem Pass.Sound.mono (hears : heard ⊆ moreHeard) (sees : seen ⊆ moreSeen)
    {endpoints : List String} {began deadline now later region : Nat} (passed : now ≤ later)
    {pass : Pass} (sound : pass.Sound t heard seen endpoints began deadline now region) :
    pass.Sound t moreHeard moreSeen endpoints began deadline later region := by
  cases sound with
  | waiting split before after past current bounded =>
    exact .waiting split (before.mono hears sees) after (Nat.le_trans past passed)
      (current.mono hears sees) (by omega)
  | finished whole => exact .finished (whole.mono hears sees)

end Monotone

theorem Measurements.length_eq {region began deadline last : Nat} {endpoints : List String}
    {latencies : List Binary64}
    (measurements : Measurements t heard seen region began deadline endpoints latencies last) :
    latencies.length = endpoints.length := by
  induction measurements with
  | none => rfl
  | next _ _ _ _ ih => simp [ih]

variable {now began deadline : Nat}

/-- A call ends by its deadline, or at once if it is made after that. -/
theorem Reply.due_call_le {ε α : Type} (reply : Reply ε α) (late : ε) (now deadline : Nat) :
    (reply.call late now deadline).due ≤ max now deadline := by
  unfold Reply.call
  cases reply.delay with
  | none => exact Nat.le_refl _
  | some delay =>
    dsimp only
    split
    · rename_i counts
      dsimp only
      omega
    · exact Nat.le_refl _

/-- A fetch that is looked at stems from a call that was made and its reply. -/
theorem Slot.sound_poll {place : Nat} {address : Net.Ipv4} {slot after : Slot}
    {entries : List Entry}
    (ready : slot = .fresh ∧ now = began ∨
      slot.Sound t heard seen began deadline now place address)
    (result : slot.poll t now deadline place address = (entries, some after))
    (shown : ∀ entry ∈ entries, (now, entry) ∈ seen) :
    after.Sound t heard seen began deadline now place address := by
  have settled {call : Call FetchFailure PopStatus} {next : Slot}
      (fetched : Fetched t heard seen began deadline place address call.outcome)
      (bounded : call.due ≤ max now deadline)
      (settle : Slot.settle now call = some next) :
      next.Sound t heard seen began deadline now place address := by
    unfold Slot.settle at settle
    split at settle
    · cases settle
      exact .waiting fetched bounded
    · obtain ⟨status, record, rfl⟩ := Option.map_eq_some_iff.mp settle
      exact .done fetched record
  rcases ready with ⟨rfl, rfl⟩ | sound
  · simp only [Slot.poll, Prod.mk.injEq] at result
    obtain ⟨rfl, settle⟩ := result
    exact settled ⟨shown _ (List.mem_singleton_self _), .inl rfl⟩
      (Reply.due_call_le _ _ now deadline) settle
  · cases sound with
    | waiting fetched bounded =>
      simp only [Slot.poll, Prod.mk.injEq] at result
      exact settled fetched bounded result.2
    | done fetched record =>
      simp only [Slot.poll, Prod.mk.injEq, Option.some.injEq] at result
      obtain ⟨_, rfl⟩ := result
      exact .done fetched record

/-- Measuring on from some latencies keeps all of them and their order. -/
theorem Pass.sound_measure {endpoints measured remaining : List String} {region last : Nat}
    {latencies : List Binary64} {entries : List Entry} {after : Pass}
    (split : endpoints = measured ++ remaining)
    (before : Measurements t heard seen region began deadline measured latencies last)
    (later : last ≤ now)
    (result : Pass.measure t region now deadline latencies remaining = (entries, some after))
    (shown : ∀ entry ∈ entries, (now, entry) ∈ seen) :
    after.Sound t heard seen endpoints began deadline now region := by
  -- What is left to measure gets shorter, and what has been measured grows at its end.
  induction remaining generalizing measured latencies last entries after with
  | nil =>
    simp only [Pass.measure, Prod.mk.injEq, Option.some.injEq] at result
    obtain ⟨_, rfl⟩ := result
    rw [List.append_nil] at split
    exact .finished (split ▸ before)
  | cons endpoint remaining ih =>
    let call :=
      (t.measure now region latencies.length endpoint).call .deadlineExceeded now deadline
    have current (made : (now, .measured region endpoint) ∈ seen) :
        Measured t heard seen region deadline now latencies.length endpoint call.outcome :=
      ⟨made, .inl rfl⟩
    simp only [Pass.measure] at result
    by_cases waits : now < call.due
    · simp only [call, waits, if_true, Prod.mk.injEq, Option.some.injEq] at result
      obtain ⟨rfl, rfl⟩ := result
      exact .waiting split before later (Nat.le_refl _)
        (current (shown _ (List.mem_singleton_self _))) (Reply.due_call_le _ _ now deadline)
    · simp only [call, waits, if_false] at result
      cases accepted : latencyOf call.outcome with
      | none => simp [call, accepted] at result
      | some latency =>
        simp only [call, accepted, Prod.mk.injEq] at result
        obtain ⟨rfl, rest⟩ := result
        have made := shown _ (List.mem_cons_self ..)
        have next := Measurements.next before later (current made) accepted
        refine ih ?_ next (Nat.le_refl _) (Prod.ext rfl rest) ?_
        · rw [split, List.append_assoc]
          rfl
        · exact fun entry member => shown entry (List.mem_cons_of_mem _ member)

/-- The measurements of a region that are looked at stem from calls that were made, one after
another, and their replies. -/
theorem Pass.sound_poll {endpoints : List String} {region : Nat} {pass after : Pass}
    {entries : List Entry}
    (ready : pass = .fresh ∧ now = began ∨
      pass.Sound t heard seen endpoints began deadline now region)
    (result : pass.poll t endpoints region now deadline = (entries, some after))
    (shown : ∀ entry ∈ entries, (now, entry) ∈ seen) :
    after.Sound t heard seen endpoints began deadline now region := by
  rcases ready with ⟨rfl, rfl⟩ | sound
  · exact Pass.sound_measure rfl .none (Nat.le_refl _) result shown
  · cases sound with
    | waiting split before later past current bounded =>
      rename_i measured remaining endpoint latencies last asked call
      simp only [Pass.poll] at result
      split at result
      · cases result
        exact .waiting split before later past current bounded
      · cases accepted : latencyOf call.outcome with
        | none => simp [accepted] at result
        | some latency =>
          simp only [accepted] at result
          refine Pass.sound_measure ?_ (.next before later current accepted) past result shown
          rw [split, List.append_assoc]
          rfl
    | finished whole =>
      simp only [Pass.poll, Prod.mk.injEq, Option.some.injEq] at result
      obtain ⟨_, rfl⟩ := result
      exact .finished whole

end Steering.Refresh
