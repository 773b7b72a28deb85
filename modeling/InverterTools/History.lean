import InverterTools.Cache

/-! # What the state of the command server says about its past

`exit` lists the exits of `Server::executeCommand`, with what each does to the state.  From it come
the meaning of the response cache (`cache_sound`: an entry is the result of the latest transaction
of its command that succeeded) and that of the error counter (`deviceErrors_counted`).  Signals can
come at any time; they only set `shutdownCaught`, so runs with signals are runs of `Event`s. -/

namespace InverterTools.Server

open P18 (CommandType Machine Response)

/-! ### The exits of a call -/

/-- How the command of a call ends on the device. -/
def onDevice (m : Machine) (st : Server × Call) : Outcome Exn Response :=
  (P18.execute m st.1.device st.2.env.device st.2.env.buffer st.2.command st.2.arguments).outcome

/-- The transaction of the call has succeeded, with this response. -/
def Performed (m : Machine) (st : Server × Call) (r : Response) : Prop :=
  ¬ Live st ∧ onDevice m st = .ret r

/-- The state without the entry of the command. -/
def erased (st : Server × Call) : Server := st.1.setCache st.2.command none

/-- The exits of a call: the cache answers, the device answers, the device fails, another exception,
or no end. -/
inductive Exit (m : Machine) (st : Server × Call) : Prop where
  | cached (r : Response) (hlive : Live st) (hend : finish m st = ⟨.ret r, st.1, false, 0⟩)
  | performed (r : Response) (hr : Performed m st r) (hret : Returned m st r)
      (hserver : (finish m st).server =
        (erased st).store st.2.command st.2.arguments st.2.env.done r)
  | deviceError (e : Exn) (hlive : ¬ Live st) (he : onDevice m st = .throw e)
      (hcls : e.cls = .deviceError) (hthrow : (finish m st).outcome = .throw (translate e))
      (hserver : (finish m st).server = (erased st).countDeviceError)
  | failed (e : Exn) (hlive : ¬ Live st) (he : onDevice m st = .throw e)
      (hcls : e.cls ≠ .deviceError) (hthrow : (finish m st).outcome = .throw (translate e))
      (hserver : (finish m st).server = erased st)
  | stopped (hlive : ¬ Live st) (hend : ¬ (onDevice m st).Ended)
      (houtcome : ¬ (finish m st).outcome.Ended) (hserver : (finish m st).server = erased st)

theorem finish_of_not_live {m : Machine} {st : Server × Call} (hlive : ¬ Live st) :
    match onDevice m st with
      | .ret r => (finish m st).outcome = .ret r ∧
          (finish m st).server = (erased st).store st.2.command st.2.arguments st.2.env.done r
      | .throw e => (finish m st).outcome = .throw (translate e) ∧ (finish m st).server =
          if e.cls = .deviceError then (erased st).countDeviceError else erased st
      | .fault => (finish m st).outcome = .fault ∧ (finish m st).server = erased st
      | .pending => (finish m st).outcome = .pending ∧ (finish m st).server = erased st := by
  have hc : st.1.cached st.2.command st.2.arguments st.2.env.cacheNow = none := by
    rwa [Live, Option.not_isSome_iff_eq_none] at hlive
  cases ho : onDevice m st with
  | _ =>
      have hx : (P18.execute m (st.1.setCache st.2.command none).device st.2.env.device
          st.2.env.buffer st.2.command st.2.arguments).outcome = _ := ho
      simp only [finish, Call.run, executeCommand, hc, hx]
      exact ⟨trivial, rfl⟩

theorem exit (m : Machine) (st : Server × Call) : Exit m st := by
  by_cases hlive : Live st
  · obtain ⟨r, hc⟩ := Option.isSome_iff_exists.mp hlive
    exact .cached r hlive (finish_of_cached hc)
  have hend := finish_of_not_live (m := m) hlive
  cases ho : onDevice m st with
  | ret r =>
      simp only [ho] at hend
      exact .performed r ⟨hlive, ho⟩ hend.1 hend.2
  | throw e =>
      simp only [ho] at hend
      by_cases hcls : e.cls = .deviceError
      · rw [if_pos hcls] at hend
        exact .deviceError e hlive ho hcls hend.1 hend.2
      · rw [if_neg hcls] at hend
        exact .failed e hlive ho hcls hend.1 hend.2
  | fault =>
      simp only [ho] at hend
      exact .stopped hlive (by simp [ho, Outcome.Ended]) (by simp [hend.1, Outcome.Ended]) hend.2
  | pending =>
      simp only [ho] at hend
      exact .stopped hlive (by simp [ho, Outcome.Ended]) (by simp [hend.1, Outcome.Ended]) hend.2

theorem performed_of_returned {m : Machine} {st : Server × Call} {r : Response}
    (hlive : ¬ Live st) (h : Returned m st r) : Performed m st r := by
  refine ⟨hlive, ?_⟩
  cases exit m st with
  | cached r' hlive' => exact absurd hlive' hlive
  | performed r' hr' hret =>
      rw [Returned, hret] at h
      exact Outcome.ret.inj h ▸ hr'.2
  | deviceError e _ _ _ hthrow =>
      rw [Returned, hthrow] at h
      cases h
  | failed e _ _ _ hthrow =>
      rw [Returned, hthrow] at h
      cases h
  | stopped _ _ houtcome =>
      rw [Returned] at h
      rw [h] at houtcome
      exact absurd ⟨by simp, by simp⟩ houtcome

/-! ### The cache -/

/-- What the clock shows at the cache, before the delay, when the transaction starts and at the end
of a call, whether or not the code looks. -/
def readings (st : Server × Call) : List UInt64 :=
  [st.2.env.cacheNow, st.2.env.delayNow, st.2.env.device.started, st.2.env.done]

/-- The clock never goes back. -/
def Clocked (run : List (Server × Call)) : Prop := (run.flatMap readings).Pairwise (· ≤ ·)

instance (run : List (Server × Call)) : Decidable (Clocked run) :=
  inferInstanceAs (Decidable (List.Pairwise _ _))

/-- The call has run this command with these arguments, and the device's answer is the entry's. -/
structure Source (m : Machine) (c : CommandType) (cr : CachedResponse) (st : Server × Call) :
    Prop where
  performed : Performed m st cr.response
  command_eq : st.2.command = c
  arguments_eq : st.2.arguments = cr.arguments
  done_eq : st.2.env.done = cr.time

/-- The entry is from the latest transaction of the command that has succeeded. -/
def Latest (m : Machine) (run : List (Server × Call)) (c : CommandType) (cr : CachedResponse) :
    Prop :=
  ∃ before st after, run = before ++ st :: after ∧ Source m c cr st ∧
    ∀ later ∈ after, later.2.command = c → ∀ r, ¬ Performed m later r

section

variable {m : Machine} {st : Server × Call} {run : List (Server × Call)} {c : CommandType}
  {cr : CachedResponse}

theorem erased_cache (st : Server × Call) (c : CommandType) :
    (erased st).cache c = if c = st.2.command then none else st.1.cache c := by
  show Function.update st.1.cache st.2.command none c = _
  rw [Function.update_apply]

theorem stored_cache (st : Server × Call) (r : Response) (c : CommandType) :
    ((erased st).store st.2.command st.2.arguments st.2.env.done r).cache c =
      if c = st.2.command then some ⟨st.2.env.done, st.2.arguments, r⟩ else st.1.cache c := by
  show Function.update (erased st).cache st.2.command _ c = _
  rw [Function.update_apply]
  split_ifs with hc
  · rfl
  · rw [erased_cache, if_neg hc]

theorem Latest.append (h : Latest m run c cr) (st : Server × Call)
    (hst : st.2.command = c → ∀ r, ¬ Performed m st r) : Latest m (run ++ [st]) c cr := by
  obtain ⟨before, old, after, rfl, hold, hafter⟩ := h
  refine ⟨before, old, after ++ [st], by simp, hold, ?_⟩
  intro later hlater
  rcases List.mem_append.mp hlater with hlater | hlater
  · exact hafter later hlater
  · obtain rfl := List.mem_singleton.mp hlater
    exact hst

/-- An exit without an answer of the device leaves the other entries as they are. -/
theorem latest_of_erased (h : ∀ c cr, st.1.cache c = some cr → Latest m run c cr)
    (hcr : (erased st).cache c = some cr) : Latest m (run ++ [st]) c cr := by
  rw [erased_cache] at hcr
  split_ifs at hcr with hc
  exact (h c cr hcr).append st fun hcommand => absurd hcommand.symm hc

theorem latest_next (h : ∀ c cr, st.1.cache c = some cr → Latest m run c cr)
    (hcr : (finish m st).server.cache c = some cr) : Latest m (run ++ [st]) c cr := by
  cases exit m st with
  | cached r hlive hend =>
      rw [hend] at hcr
      exact (h c cr hcr).append st fun _ r hr => hr.1 hlive
  | performed r hr hret hserver =>
      rw [hserver, stored_cache] at hcr
      split_ifs at hcr with hc
      · obtain rfl := Option.some.inj hcr
        exact ⟨run, st, [], rfl, ⟨hr, hc.symm, rfl, rfl⟩, by simp⟩
      · exact (h c cr hcr).append st fun hcommand => absurd hcommand.symm hc
  | deviceError e hlive he hcls hthrow hserver =>
      rw [hserver] at hcr
      exact latest_of_erased h hcr
  | failed e hlive he hcls hthrow hserver =>
      rw [hserver] at hcr
      exact latest_of_erased h hcr
  | stopped hlive hend houtcome hserver =>
      rw [hserver] at hcr
      exact latest_of_erased h hcr

/-- In a run from an empty cache every entry is that of the latest transaction. -/
theorem latest_run {s : Server} (hs : ∀ c, s.cache c = none) (calls : List Call)
    (hcr : (calls.foldl (next m) s).cache c = some cr) :
    Latest m (trace (next m) s calls) c cr := by
  have hall := @trace_run _ _ (next m)
    (fun run s => ∀ c cr, s.cache c = some cr → Latest m run c cr) s
    (fun c cr h => by simp [hs] at h) (fun run s call h c cr hcr => latest_next h hcr) calls
  exact hall c cr hcr

/-- A call that throws erases the entry of its command and no other. -/
theorem cache_of_thrown {e : Exn} (h : (finish m st).outcome = .throw e) (c : CommandType) :
    (finish m st).server.cache c = if c = st.2.command then none else st.1.cache c := by
  rw [cache_of_not_returned (by rw [h]; rfl)]
  exact erased_cache st c

end

/-- The settings of the server. -/
def settings (s : Server) : Voltronic.Device × UInt64 × UInt64 × UInt32 :=
  (s.device, s.cacheTimeout, s.delay, s.deviceErrorLimit)

theorem settings_next (m : Machine) (s : Server) (call : Call) :
    (next m s call).settings = s.settings := by
  show (finish m (s, call)).server.settings = s.settings
  cases exit m (s, call) with
  | cached r hlive hend => rw [hend]
  | performed r hr hret hserver =>
      rw [hserver]
      rfl
  | deviceError e hlive he hcls hthrow hserver =>
      rw [hserver]
      rfl
  | failed e hlive he hcls hthrow hserver =>
      rw [hserver]
      rfl
  | stopped hlive hend houtcome hserver =>
      rw [hserver]
      rfl

theorem settings_run (m : Machine) (s : Server) (calls : List Call) :
    (calls.foldl (next m) s).settings = s.settings :=
  @trace_run _ _ (next m) (fun _ s' => s'.settings = s.settings) s rfl
    (fun _ s' call h => (settings_next m s' call).trans h) calls

/-- **The cache is sound.**  In every run from an empty cache, with a clock that does not go back, a
response that a call returns is its own transaction's, or the one of an earlier transaction for the
same command and arguments that ended at most `cacheTimeout_` milliseconds before; a call that
throws erases the entry of its command and no other; and every entry is from the latest transaction
of its command that has succeeded. -/
theorem cache_sound (m : Machine) {s : Server} (hs : ∀ c, s.cache c = none) (calls : List Call)
    (call : Call) (hclock : Clocked (trace (next m) s (calls ++ [call]))) :
    let run := trace (next m) s calls
    let st := (calls.foldl (next m) s, call)
    (∀ r, Returned m st r → Performed m st r ∨ ∃ old ∈ run, Performed m old r ∧
        old.2.command = call.command ∧ old.2.arguments = call.arguments ∧
        old.2.env.done ≤ call.env.cacheNow ∧
        call.env.cacheNow.toNat - old.2.env.done.toNat ≤ s.cacheTimeout.toNat) ∧
      (∀ e, (finish m st).outcome = .throw e → ∀ c,
        (finish m st).server.cache c = if c = call.command then none else st.1.cache c) ∧
      ∀ c cr, (finish m st).server.cache c = some cr → Latest m (run ++ [st]) c cr := by
  intro run st
  have hlatest : ∀ c cr, st.1.cache c = some cr → Latest m run c cr :=
    fun c cr hcr => latest_run hs calls hcr
  refine ⟨fun r hr => ?_, fun e he c => cache_of_thrown he c, fun c cr hcr =>
    latest_next hlatest hcr⟩
  have hrun : trace (next m) s (calls ++ [call]) = run ++ [st] :=
    trace_append (next m) s calls [call]
  rw [hrun, Clocked, List.flatMap_append, List.pairwise_append] at hclock
  by_cases hlive : Live st
  · right
    obtain ⟨cr, hcr, hage, hargs, hresponse, -⟩ | ⟨hnot, -⟩ := returned_cases hr
    · obtain ⟨before, old, after, heq, hold, -⟩ := hlatest _ cr hcr
      have hmem : old ∈ run := by
        rw [heq]
        simp
      have hle : old.2.env.done ≤ call.env.cacheNow := by
        refine hclock.2.2 _ (List.mem_flatMap.mpr ⟨old, hmem, ?_⟩) _
          (List.mem_flatMap.mpr ⟨st, List.mem_singleton_self st, ?_⟩)
        · simp [readings]
        · simp [readings, st]
      refine ⟨old, hmem, hresponse ▸ hold.performed, hold.command_eq, ?_, hle, ?_⟩
      · exact hold.arguments_eq.trans hargs.symm
      · have htimeout : st.1.cacheTimeout = s.cacheTimeout :=
          congrArg (fun settings => settings.2.1) (settings_run m s calls)
        rw [← hold.done_eq, htimeout, UInt64.le_iff_toNat_le, UInt64.toNat_sub_of_le _ _ hle]
          at hage
        exact hage
    · exact absurd hlive hnot
  · exact .inl (performed_of_returned hlive hr)

/-- `get-mode` at time `t`, answered at once. -/
def readMode (t : UInt64) : Call := ⟨.getWorkingMode, [], answeredAt t (ascii "^D00505")⟩

/-- The mode is read twice within half a second. -/
theorem cache_sound_hit :
    let run := trace (next P18.x86) started [readMode 100]
    let st := ([readMode 100].foldl (next P18.x86) started, readMode 500)
    ∃ r, Returned P18.x86 st r ∧ (Performed P18.x86 st r ∨ ∃ old ∈ run,
      Performed P18.x86 old r ∧ old.2.command = .getWorkingMode ∧ old.2.arguments = [] ∧
      old.2.env.done ≤ 500 ∧
      (500 : UInt64).toNat - old.2.env.done.toNat ≤ CACHE_TIMEOUT.toNat) := by
  have hlive : Live ([readMode 100].foldl (next P18.x86) started, readMode 500) := by
    decide +kernel
  obtain ⟨r, hr⟩ := returned_of_live (m := P18.x86) hlive
  exact ⟨r, hr, (cache_sound P18.x86 (fun _ => rfl) [readMode 100] (readMode 500)
    (by decide)).1 r hr⟩

/-! ### Errors of the device -/

/-- What can happen to the server: a call, or a signal. -/
inductive Event where
  | call (call : Call)
  | signal
deriving DecidableEq, Repr

/-- The state an event leaves; `sighandler` sets `shutdownCaught`. -/
def react (m : Machine) (s : Server) : Event → Server
  | .call call => next m s call
  | .signal => { s with shutdownCaught := true }

/-- The event is a call whose transaction succeeds. -/
def succeeds (m : Machine) : Server × Event → Bool
  | (s, .call call) => !decide (Live (s, call)) && (onDevice m (s, call)).isRet
  | (_, .signal) => false

/-- The event is a call that ends in a `DeviceError`. -/
def fails (m : Machine) : Server × Event → Bool
  | (s, .call call) => !decide (Live (s, call)) && match onDevice m (s, call) with
      | .throw e => e.cls == .deviceError
      | _ => false
  | (_, .signal) => false

/-- The number of calls that ended in a `DeviceError` since the last transaction that succeeded. -/
def errorsSince (m : Machine) (run : List (Server × Event)) : ℕ :=
  (run.reverse.takeWhile (fun p => !succeeds m p)).countP (fails m)

/-- Some `DeviceError` of the run has brought that number to the limit. -/
def Reached (m : Machine) (limit : ℕ) (run : List (Server × Event)) : Prop :=
  ∃ before p after, run = before ++ p :: after ∧ fails m p = true ∧
    limit ≤ errorsSince m (before ++ [p])

section

variable {m : Machine} {run : List (Server × Event)} {p : Server × Event} {limit : ℕ}

theorem errorsSince_append : errorsSince m (run ++ [p]) =
    if succeeds m p = true then 0 else errorsSince m run + (fails m p).toNat := by
  unfold errorsSince
  rw [List.reverse_concat]
  split_ifs with h
  · rw [List.takeWhile_cons_of_neg (by simpa using h), List.countP_nil]
  · rw [List.takeWhile_cons_of_pos (by simpa using h), List.countP_cons]
    cases fails m p <;> rfl

theorem not_succeeds_of_fails (h : fails m p = true) : succeeds m p = false := by
  obtain ⟨s, call | _⟩ := p
  · simp only [fails, succeeds, Bool.and_eq_true] at h ⊢
    cases ho : onDevice m (s, call) with
    | throw e => simp [Outcome.isRet]
    | ret r => simp [ho] at h
    | fault => simp [ho] at h
    | pending => simp [ho] at h
  · rfl

theorem reached_append : Reached m limit (run ++ [p]) ↔
    Reached m limit run ∨ (fails m p = true ∧ limit ≤ errorsSince m (run ++ [p])) := by
  constructor
  · rintro ⟨before, q, after, heq, hq, hle⟩
    rcases List.eq_nil_or_concat after with rfl | ⟨after', last, rfl⟩
    · obtain ⟨rfl, hpq⟩ := List.append_inj' heq rfl
      obtain rfl := List.singleton_inj.mp hpq
      exact .inr ⟨hq, hle⟩
    · rw [List.concat_eq_append, ← List.cons_append, ← List.append_assoc] at heq
      obtain ⟨rfl, -⟩ := List.append_inj' heq rfl
      exact .inl ⟨before, q, after', rfl, hq, hle⟩
  · rintro (⟨before, q, after, rfl, hq, hle⟩ | ⟨hp, hle⟩)
    · exact ⟨before, q, after ++ [p], by simp, hq, hle⟩
    · exact ⟨run, p, [], rfl, hp, hle⟩

theorem reached_of_le (hpos : 0 < errorsSince m run) (hle : limit ≤ errorsSince m run) :
    Reached m limit run := by
  induction run using List.reverseRecOn with
  | nil => exact absurd hpos (Nat.lt_irrefl 0)
  | append_singleton run p ih =>
      rw [reached_append]
      cases hf : fails m p with
      | true => exact .inr ⟨rfl, hle⟩
      | false =>
          rw [errorsSince_append, hf] at hpos hle
          split_ifs at hpos hle with hs
          · omega
          · exact .inl (ih hpos hle)

/-- What the counter and the flag say about the events so far. -/
structure Counted (m : Machine) (limit : ℕ) (run : List (Server × Event)) (s : Server) : Prop where
  limit_eq : s.deviceErrorLimit.toNat = limit
  counter_eq : s.deviceErrorCounter.toNat = errorsSince m run % 2 ^ 32
  caught_iff : s.shutdownCaught = true ↔ (∃ q ∈ run, q.2 = .signal) ∨ Reached m limit run

theorem Counted.same {s s' : Server} (h : Counted m limit run s) (hs : succeeds m p = false)
    (hf : fails m p = false) (hp : p.2 ≠ .signal)
    (heq : (s'.deviceErrorLimit, s'.deviceErrorCounter, s'.shutdownCaught) =
      (s.deviceErrorLimit, s.deviceErrorCounter, s.shutdownCaught)) :
    Counted m limit (run ++ [p]) s' := by
  simp only [Prod.mk.injEq] at heq
  constructor
  · rw [heq.1, h.limit_eq]
  · rw [heq.2.1, h.counter_eq, errorsSince_append, hs, hf]
    rfl
  · rw [heq.2.2, h.caught_iff, reached_append, hf]
    simp [or_and_right, exists_or, hp]

theorem counted_call {s : Server} {call : Call} (h : Counted m limit run s) :
    Counted m limit (run ++ [(s, .call call)]) (next m s call) := by
  have hnext : next m s call = (finish m (s, call)).server := rfl
  rw [hnext]
  cases exit m (s, call) with
  | cached r hlive hend =>
      rw [hend]
      apply h.same
      · simp [succeeds, hlive]
      · simp [fails, hlive]
      · simp
      · rfl
  | performed r hr hret hserver =>
      have hs : succeeds m (s, .call call) = true := by
        simp [succeeds, hr.1, hr.2, Outcome.isRet]
      have hf : fails m (s, .call call) = false := by
        simp [fails, hr.2]
      rw [hserver]
      constructor
      · exact h.limit_eq
      · rw [errorsSince_append, if_pos hs]
        rfl
      · have hcaught : ((erased (s, call)).store call.command call.arguments call.env.done
            r).shutdownCaught = s.shutdownCaught := rfl
        rw [hcaught, h.caught_iff, reached_append, hf]
        simp [or_and_right, exists_or]
  | deviceError e hlive he hcls hthrow hserver =>
      have hf : fails m (s, .call call) = true := by
        simp [fails, hlive, he, hcls]
      have hs := not_succeeds_of_fails hf
      have hnumber : errorsSince m (run ++ [(s, .call call)]) = errorsSince m run + 1 := by
        rw [errorsSince_append, hs, hf]
        rfl
      have hcounter : (s.deviceErrorCounter + 1).toNat = (errorsSince m run + 1) % 2 ^ 32 := by
        rw [UInt32.toNat_add, h.counter_eq]
        simp
      rw [hserver]
      constructor
      · exact h.limit_eq
      · rw [hnumber]
        exact hcounter
      · show (s.shutdownCaught || decide (s.deviceErrorLimit ≤ s.deviceErrorCounter + 1)) = true ↔ _
        rw [Bool.or_eq_true, h.caught_iff, decide_eq_true_iff, UInt32.le_iff_toNat_le, h.limit_eq,
          hcounter, reached_append, hf, hnumber]
        have hsignal : (∃ q ∈ run ++ [(s, Event.call call)], q.2 = .signal) ↔
            ∃ q ∈ run, q.2 = .signal := by
          simp [or_and_right, exists_or]
        rw [hsignal, or_assoc]
        refine or_congr_right ?_
        constructor
        · rintro (hr | hle)
          · exact .inl hr
          · exact .inr ⟨rfl, hle.trans (Nat.mod_le _ _)⟩
        · rintro (hr | ⟨-, hle⟩)
          · exact .inl hr
          · -- a counter that wraps round has passed the limit before
            by_cases hwrap : errorsSince m run + 1 < 2 ^ 32
            · exact .inr (by rwa [Nat.mod_eq_of_lt hwrap])
            · have hlimit : limit < 2 ^ 32 := h.limit_eq ▸ s.deviceErrorLimit.toNat_lt
              exact .inl (reached_of_le (by omega) (by omega))
  | failed e hlive he hcls hthrow hserver =>
      rw [hserver]
      apply h.same
      · simp [succeeds, he, Outcome.isRet]
      · simp [fails, he, hcls]
      · simp
      · rfl
  | stopped hlive hend houtcome hserver =>
      rw [hserver]
      apply h.same
      · cases ho : onDevice m (s, call) <;> simp_all [succeeds, Outcome.isRet, Outcome.Ended]
      · cases ho : onDevice m (s, call) <;> simp_all [fails, Outcome.Ended]
      · simp
      · rfl

theorem counted_signal {s : Server} (h : Counted m limit run s) :
    Counted m limit (run ++ [(s, .signal)]) (react m s .signal) := by
  constructor
  · exact h.limit_eq
  · rw [errorsSince_append]
    exact h.counter_eq
  · have hsignal : ∃ q ∈ run ++ [(s, Event.signal)], q.2 = .signal := ⟨(s, .signal), by simp, rfl⟩
    exact iff_of_true rfl (.inl hsignal)

end

/-- **The limit of device errors.**  In every run from a server that has counted nothing, signals
included, the counter is, modulo `2 ^ 32`, the number of calls that ended in a `DeviceError` since
the last transaction that succeeded, and `shutdownCaught` is set exactly when a signal has come or
some `DeviceError` has brought that number to the limit.  A call that throws anything else leaves
both as they are. -/
theorem deviceErrors_counted (m : Machine) {s : Server} (hcounter : s.deviceErrorCounter = 0)
    (hcaught : s.shutdownCaught = false) (events : List Event) :
    let run := trace (react m) s events
    let s' := events.foldl (react m) s
    s'.deviceErrorCounter.toNat = errorsSince m run % 2 ^ 32 ∧
      (s'.shutdownCaught = true ↔
        .signal ∈ events ∨ Reached m s.deviceErrorLimit.toNat run) ∧
      ∀ call e, (finish m (s', call)).outcome = .throw e → fails m (s', .call call) = false →
        (next m s' call).deviceErrorCounter = s'.deviceErrorCounter ∧
          (next m s' call).shutdownCaught = s'.shutdownCaught := by
  intro run s'
  have hcounted : Counted m s.deviceErrorLimit.toNat run s' := by
    have hstart : Counted m s.deviceErrorLimit.toNat [] s := by
      constructor
      · rfl
      · rw [hcounter]
        rfl
      · simp [hcaught, Reached]
    apply trace_run (react m) hstart
    intro run s event h
    cases event with
    | call call => exact counted_call h
    | signal => exact counted_signal h
  refine ⟨hcounted.counter_eq, ?_, ?_⟩
  · rw [hcounted.caught_iff]
    have hsignal : (∃ q ∈ run, q.2 = .signal) ↔ .signal ∈ events := by
      rw [← map_snd_trace (react m) s events, List.mem_map]
    rw [hsignal]
  · intro call e he hf
    have hnext : next m s' call = (finish m (s', call)).server := rfl
    rw [hnext]
    cases exit m (s', call) with
    | cached r hlive hend => simp [hend]
    | performed r hr hret hserver =>
        rw [Returned, he] at hret
        cases hret
    | deviceError e' hlive he' hcls hthrow hserver => simp [fails, hlive, he', hcls] at hf
    | failed e' hlive he' hcls hthrow hserver =>
        rw [hserver]
        exact ⟨rfl, rfl⟩
    | stopped hlive hend houtcome hserver =>
        rw [hserver]
        exact ⟨rfl, rfl⟩

/-- `get-mode` at time `t`, when the first report cannot be written. -/
def unwritten (t : UInt64) : Call :=
  ⟨.getWorkingMode, [], ⟨t, t, ⟨t, [⟨-1, 0, t, t⟩], t, t, []⟩, P18.zeroBuffer, t⟩⟩

/-- Ten errors in a row stop a daemon with the default limit. -/
theorem deviceErrors_counted_ten :
    let events := List.replicate 10 (Event.call (unwritten 100))
    (events.foldl (react P18.x86) started).deviceErrorCounter.toNat =
        errorsSince P18.x86 (trace (react P18.x86) started events) % 2 ^ 32 ∧
      ((events.foldl (react P18.x86) started).shutdownCaught = true ↔ .signal ∈ events ∨
        Reached P18.x86 10 (trace (react P18.x86) started events)) :=
  have h := deviceErrors_counted P18.x86 (s := started) rfl rfl
    (List.replicate 10 (Event.call (unwritten 100)))
  ⟨h.1, h.2.1⟩

end InverterTools.Server
