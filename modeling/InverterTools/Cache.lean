import InverterTools.Server
import InverterTools.Lib.Trace

/-! # What the response cache does to writes and reads

A run is a list of calls, each from the state the call before has left; `trace` pairs every call
with that state.  A call is `Live` when the cache answers it.  From the step lemma `sent_iff` comes
which writes reach the device, and from the invariant `Recorded`, that every entry of the cache
tells of an earlier call of the run, how old a read can be. -/

namespace InverterTools.Server

open P18 (CommandType Machine Response)
open Voltronic (Device)

/-- How a call of a run ends. -/
def finish (m : Machine) (st : Server × Call) : CallEnd := st.2.run m st.1

/-- The call returns this response. -/
def Returned (m : Machine) (st : Server × Call) (r : Response) : Prop :=
  (finish m st).outcome = .ret r

/-- The request went out to the device. -/
def Sent (m : Machine) (st : Server × Call) : Prop := (finish m st).sent = true

/-- The cache holds an answer for the call that is still good. -/
def Live (st : Server × Call) : Prop :=
  (st.1.cached st.2.command st.2.arguments st.2.env.cacheNow).isSome = true

instance (m : Machine) (st : Server × Call) : Decidable (Sent m st) :=
  inferInstanceAs (Decidable (_ = true))

instance (st : Server × Call) : Decidable (Live st) := inferInstanceAs (Decidable (_ = true))

section

variable {m : Machine} {st : Server × Call} {r : Response}

/-! ### One call -/

theorem finish_of_cached
    (h : st.1.cached st.2.command st.2.arguments st.2.env.cacheNow = some r) :
    finish m st = ⟨.ret r, st.1, false, 0⟩ := by
  rw [finish, Call.run, executeCommand, h]

theorem cached_eq_some {s : Server} {c : CommandType} {args : List Bytes} {now : UInt64} :
    s.cached c args now = some r ↔ ∃ cr, s.cache c = some cr ∧ now - cr.time ≤ s.cacheTimeout ∧
      args = cr.arguments ∧ cr.response = r := by
  unfold cached
  cases s.cache c with
  | none => simp
  | some cr => simp [and_assoc]

/-- A call that returns has either been answered by the cache, or has run its command, sent the
request and stored the response. -/
theorem returned_cases (h : Returned m st r) :
    (∃ cr, st.1.cache st.2.command = some cr ∧
        st.2.env.cacheNow - cr.time ≤ st.1.cacheTimeout ∧ st.2.arguments = cr.arguments ∧
        cr.response = r ∧ finish m st = ⟨.ret r, st.1, false, 0⟩) ∨
      (¬ Live st ∧ Sent m st ∧ (finish m st).server =
        (st.1.setCache st.2.command none).store st.2.command st.2.arguments st.2.env.done r) := by
  cases hc : st.1.cached st.2.command st.2.arguments st.2.env.cacheNow with
  | some r' =>
      have hfinish := finish_of_cached (m := m) hc
      rw [Returned, hfinish] at h
      obtain rfl := Outcome.ret.inj h
      obtain ⟨cr, hcr, hage, hargs, hr⟩ := cached_eq_some.mp hc
      exact .inl ⟨cr, hcr, hage, hargs, hr, hfinish⟩
  | none =>
      right
      refine ⟨by simp [Live, hc], ?_⟩
      simp only [Returned, Sent, finish, Call.run, executeCommand, hc] at h ⊢
      cases hx : (P18.execute m (st.1.setCache st.2.command none).device st.2.env.device
          st.2.env.buffer st.2.command st.2.arguments).outcome with
      | ret r' =>
          simp only [hx] at h ⊢
          obtain rfl := Outcome.ret.inj h
          exact ⟨P18.sent_of_execute_ret hx, rfl⟩
      | throw e => simp [hx] at h
      | fault => simp [hx] at h
      | pending => simp [hx] at h

/-- **One call**: when it returns, the request went out exactly if the cache did not answer. -/
theorem sent_iff (h : Returned m st r) : Sent m st ↔ ¬ Live st := by
  rcases returned_cases h with ⟨cr, hcr, hage, hargs, -, hfinish⟩ | ⟨hlive, hsent, -⟩
  · have hlive : Live st := by
      rw [Live, cached_eq_some.mpr ⟨cr, hcr, hage, hargs, rfl⟩]
      rfl
    simp [Sent, hfinish, hlive]
  · exact iff_of_true hsent hlive

theorem returned_of_live (h : Live st) : ∃ r, Returned m st r := by
  obtain ⟨r, hr⟩ := Option.isSome_iff_exists.mp h
  exact ⟨r, by rw [Returned, finish_of_cached hr]⟩

end

/-! ### Writes -/

/-- The set commands of a run that were answered, in order. -/
def answeredSets (m : Machine) (run : List (Server × Call)) : List (CommandType × List Bytes) :=
  (run.filter (fun st => st.2.command.isSet && (finish m st).outcome.isRet)).map
    (fun st => (st.2.command, st.2.arguments))

/-- The set commands of a run that went out to the device, in order. -/
def sentSets (m : Machine) (run : List (Server × Call)) : List (CommandType × List Bytes) :=
  (run.filter (fun st => st.2.command.isSet && (finish m st).sent)).map
    (fun st => (st.2.command, st.2.arguments))

/-- **Writes and the cache.**  In a run every answered set command has been sent to the device by
the call that answered it exactly when none of them met a live entry of the cache.  The settings of
a device that applies every set command sent to it are then those of the answered commands in
order, if every set command sent was answered. -/
theorem setCalls_sent_iff (m : Machine) (s : Server) (calls : List Call) :
    ((∀ st ∈ trace (next m) s calls, st.2.command.isSet = true →
        ∀ r, Returned m st r → Sent m st) ↔
      ∀ st ∈ trace (next m) s calls, st.2.command.isSet = true → ¬ Live st) ∧
    ((∀ st ∈ trace (next m) s calls, st.2.command.isSet = true → ¬ Live st) →
      (∀ st ∈ trace (next m) s calls, st.2.command.isSet = true → Sent m st →
        ∃ r, Returned m st r) →
      ∀ (Settings : Type) (apply : Settings → CommandType × List Bytes → Settings)
        (initial : Settings),
        (sentSets m (trace (next m) s calls)).foldl apply initial =
          (answeredSets m (trace (next m) s calls)).foldl apply initial) := by
  refine ⟨⟨fun h st hst hset hlive => ?_, fun h st hst hset r hr => ?_⟩, ?_⟩
  · obtain ⟨r, hr⟩ := returned_of_live (m := m) hlive
    exact (sent_iff hr).mp (h st hst hset r hr) hlive
  · exact (sent_iff hr).mpr (h st hst hset)
  · intro hlive hanswered Settings apply initial
    have hsame : sentSets m (trace (next m) s calls) = answeredSets m (trace (next m) s calls) := by
      refine congrArg _ (List.filter_congr fun st hst => ?_)
      cases hset : st.2.command.isSet with
      | false => rfl
      | true =>
          rw [Bool.true_and, Bool.true_and, Bool.eq_iff_iff, Outcome.isRet_iff]
          refine ⟨hanswered st hst hset, ?_⟩
          rintro ⟨r, hr⟩
          exact (sent_iff hr).mpr (hlive st hst hset)
    rw [hsame]

/-- A call at time `t` that the device answers at once: up to three reports out, the frame of
`reply` in up to three reports back. -/
def answeredAt (t : UInt64) (reply : Bytes) : Env :=
  let frame := Device.frame Voltronic.defaultFlags reply
  let write : Voltronic.WriteEvent := ⟨9, 8, t, t⟩
  let read (data : Bytes) : Voltronic.ReadEvent := ⟨data.length, data, t, t⟩
  ⟨t, t, ⟨t, [write, write, write], t, t,
    [read (frame.take 8), read ((frame.drop 8).take 8), read (frame.drop 16)]⟩,
    P18.zeroBuffer, t⟩

/-- A daemon on a USB device, just started. -/
def started : Server := init ⟨.usb, Voltronic.defaultFlags, Voltronic.TIMEOUT⟩

/-- `set-flag BUZZ 1`, `set-defaults`, and `set-flag BUZZ 1` again, all within half a second. -/
def undoneFlag : List Call := [
  ⟨.setFlag, [ascii "A", ascii "1"], answeredAt 100 (ascii "^1")⟩,
  ⟨.setDefaults, [], answeredAt 300 (ascii "^1")⟩,
  ⟨.setFlag, [ascii "A", ascii "1"], answeredAt 500 (ascii "^1")⟩]

/-- The second `set-flag` is answered by the cache, and the buzzer stays as the defaults have it. -/
theorem setCalls_lost_update : ¬ ∀ (m : Machine) (s : Server) (calls : List Call),
    ∀ st ∈ trace (next m) s calls, st.2.command.isSet = true →
      ∀ r, Returned m st r → Sent m st := fun h => by
  have hmet : ∃ st ∈ trace (next P18.x86) started undoneFlag,
      st.2.command.isSet = true ∧ Live st := by decide
  obtain ⟨st, hst, hset, hlive⟩ := hmet
  obtain ⟨r, hr⟩ := returned_of_live (m := P18.x86) hlive
  exact (sent_iff hr).mp (h P18.x86 started undoneFlag st hst hset r hr) hlive

/-! ### Reads -/

/-- The call at index `j` of a run has sent this command and returned this response. -/
def Origin (m : Machine) (run : List (Server × Call)) (c : CommandType) (args : List Bytes)
    (r : Response) (done : UInt64) (j : ℕ) : Prop :=
  ∃ st, run[j]? = some st ∧ st.2.command = c ∧ st.2.arguments = args ∧ st.2.env.done = done ∧
    Sent m st ∧ Returned m st r

/-- Every entry of the cache tells of a call so far. -/
def Recorded (m : Machine) (pre : List (Server × Call)) (s : Server) : Prop :=
  ∀ c cr, s.cache c = some cr → ∃ j, Origin m pre c cr.arguments cr.response cr.time j

theorem setCache_eq_some {s : Server} {c c' : CommandType} {cr : CachedResponse}
    (h : (s.setCache c none).cache c' = some cr) : s.cache c' = some cr := by
  by_cases hc : c' = c
  · subst hc
    simp [setCache] at h
  · simpa [setCache, Function.update_of_ne hc] using h

/-- A call that does not return leaves no entry for its command. -/
theorem cache_of_not_returned {m : Machine} {st : Server × Call}
    (h : (finish m st).outcome.isRet = false) :
    (finish m st).server.cache = (st.1.setCache st.2.command none).cache := by
  cases hc : st.1.cached st.2.command st.2.arguments st.2.env.cacheNow with
  | some r =>
      rw [finish_of_cached hc] at h
      cases h
  | none =>
      simp only [finish, Call.run, executeCommand, hc] at h ⊢
      cases hx : (P18.execute m (st.1.setCache st.2.command none).device st.2.env.device
          st.2.env.buffer st.2.command st.2.arguments).outcome with
      | ret r =>
          simp only [hx] at h
          cases h
      | throw e =>
          simp only
          split_ifs <;> rfl
      | fault => rfl
      | pending => rfl

theorem next_cache {m : Machine} {s : Server} {call : Call} {c : CommandType}
    {cr : CachedResponse} (h : (next m s call).cache c = some cr) :
    s.cache c = some cr ∨ (call.command = c ∧ Sent m (s, call) ∧
      Returned m (s, call) cr.response ∧ cr.arguments = call.arguments ∧
      cr.time = call.env.done) := by
  have hfinish : (next m s call) = (finish m (s, call)).server := rfl
  rw [hfinish] at h
  cases hret : (finish m (s, call)).outcome.isRet with
  | true =>
      obtain ⟨r, ho⟩ := Outcome.isRet_iff.mp hret
      rcases returned_cases ho with ⟨-, -, -, -, -, heq⟩ | ⟨-, hsent, heq⟩
      · rw [heq] at h
        exact .inl h
      · rw [heq] at h
        by_cases hc : c = call.command
        · subst hc
          obtain rfl : ⟨call.env.done, call.arguments, r⟩ = cr := by
            simpa [store, setCache] using h
          exact .inr ⟨rfl, hsent, ho, rfl, rfl⟩
        · refine .inl (setCache_eq_some (c := call.command) ?_)
          simpa [store, setCache, Function.update_of_ne hc] using h
  | false =>
      rw [cache_of_not_returned hret] at h
      exact .inl (setCache_eq_some h)

theorem Origin.append {m : Machine} {pre : List (Server × Call)} {c : CommandType}
    {args : List Bytes} {r : Response} {done : UInt64} {j : ℕ} (h : Origin m pre c args r done j)
    (post : List (Server × Call)) : Origin m (pre ++ post) c args r done j := by
  obtain ⟨st, hj, hst⟩ := h
  have hlt := (List.getElem?_eq_some_iff.mp hj).1
  exact ⟨st, by rw [List.getElem?_append_left hlt, hj], hst⟩

theorem recorded_next {m : Machine} {pre : List (Server × Call)} {s : Server} {call : Call}
    (h : Recorded m pre s) : Recorded m (pre ++ [(s, call)]) (next m s call) := by
  intro c cr hcr
  rcases next_cache hcr with hold | ⟨hc, hsent, hr, hargs, htime⟩
  · obtain ⟨j, hj⟩ := h c cr hold
    exact ⟨j, hj.append _⟩
  · exact ⟨pre.length, (s, call), by simp, hc, hargs.symm, htime.symm, hsent, hr⟩

/-- All along a run from an empty cache, the entries tell of calls before. -/
theorem recorded_run {m : Machine} {s : Server} (hs : ∀ c, s.cache c = none) {calls : List Call}
    {i : ℕ} {st : Server × Call} (hi : (trace (next m) s calls)[i]? = some st) :
    Recorded m ((trace (next m) s calls).take i) st.1 :=
  trace_history (next m) (fun c cr h => by simp [hs] at h) (fun _ _ _ h => recorded_next h) hi

/-- **What a read returns.**  In a run from an empty cache, take a set command and a later call of a
get command that returns.  Its response comes from the device, by a call after the set command, or
it was cached by an earlier call of the same command with the same arguments, and by the server's
clock at most `cacheTimeout_` milliseconds have passed since. -/
theorem get_fresh_or_cached (m : Machine) {s : Server} (hs : ∀ c, s.cache c = none)
    {calls : List Call} {k i : ℕ} {set get : Server × Call}
    (hk : (trace (next m) s calls)[k]? = some set) (hi : (trace (next m) s calls)[i]? = some get)
    (hki : k < i) (hset : set.2.command.isSet = true) (hget : get.2.command.isSet = false)
    {r : Response} (hr : Returned m get r) :
    ∃ j done, Origin m (trace (next m) s calls) get.2.command get.2.arguments r done j ∧
      ((k < j ∧ j ≤ i) ∨ (j < k ∧ get.2.env.cacheNow - done ≤ get.1.cacheTimeout)) := by
  rcases returned_cases hr with ⟨cr, hcr, hage, hargs, hresp, -⟩ | ⟨-, hsent, -⟩
  · obtain ⟨j, st, hj, hc, hstargs, hdone, hsent, hret⟩ := recorded_run hs hi _ cr hcr
    have hjlt : j < i := by
      have := (List.getElem?_eq_some_iff.mp hj).1
      rw [List.length_take] at this
      omega
    rw [List.getElem?_take_of_lt hjlt] at hj
    refine ⟨j, cr.time, ⟨st, hj, hc, hstargs.trans hargs.symm, hdone, hsent, hresp ▸ hret⟩, ?_⟩
    rcases Nat.lt_trichotomy j k with hlt | rfl | hgt
    · exact .inr ⟨hlt, hage⟩
    · obtain rfl := Option.some.inj (hj.symm.trans hk)
      rw [hc, hget] at hset
      cases hset
    · exact .inl ⟨hgt, hjlt.le⟩
  · exact ⟨i, get.2.env.done, ⟨get, hi, rfl, rfl, rfl, hsent, hr⟩, .inl ⟨hki, le_rfl⟩⟩

/-- A read of the charging times, a write of new ones, and the same read 200 ms later. -/
def staleRead : List Call := [
  ⟨.getACChargeTimeBucket, [], answeredAt 100 (ascii "^D0120000,0000")⟩,
  ⟨.setACChargeTimeBucket, [ascii "01", ascii "00", ascii "02", ascii "00"],
    answeredAt 300 (ascii "^1")⟩,
  ⟨.getACChargeTimeBucket, [], answeredAt 500 (ascii "^D0120100,0200")⟩]

/-- The run of these calls. -/
def staleRun : List (Server × Call) := trace (next P18.x86) started staleRead

/-- The second read was cached 400 ms before, by the first one. -/
theorem get_fresh_or_cached_stale :
    let read := staleRun.get ⟨2, by decide⟩
    ∃ r, Returned P18.x86 read r ∧
      ∃ j done, Origin P18.x86 staleRun read.2.command read.2.arguments r done j ∧
        ((1 < j ∧ j ≤ 2) ∨ (j < 1 ∧ read.2.env.cacheNow - done ≤ read.1.cacheTimeout)) := by
  have hlive : Live (staleRun.get ⟨2, by decide⟩) := by decide +kernel
  obtain ⟨r, hr⟩ := returned_of_live (m := P18.x86) hlive
  have hwrite : (trace (next P18.x86) started staleRead)[1]? =
      some (staleRun.get ⟨1, by decide⟩) := rfl
  have hread : (trace (next P18.x86) started staleRead)[2]? =
      some (staleRun.get ⟨2, by decide⟩) := rfl
  exact ⟨r, hr, get_fresh_or_cached P18.x86 (fun _ => rfl) hwrite hread (by omega) rfl rfl hr⟩

/-- The second read still returns the times from before the write, which the device acknowledged. -/
theorem get_before_write : ¬ ∀ (m : Machine) (s : Server), (∀ c, s.cache c = none) →
    ∀ (calls : List Call) (k i : ℕ) (set get : Server × Call),
      (trace (next m) s calls)[k]? = some set → (trace (next m) s calls)[i]? = some get → k < i →
      set.2.command.isSet = true → (∃ r, Returned m set r ∧ P18.setGet r.raw = true) →
      get.2.command.isSet = false → ∀ r, Returned m get r →
      ∃ j done, Origin m (trace (next m) s calls) get.2.command get.2.arguments r done j ∧
        k < j ∧ j ≤ i := fun h => by
  let write := staleRun.get ⟨1, by decide⟩
  let read := staleRun.get ⟨2, by decide⟩
  have hwrite : ∃ r, Returned P18.x86 write r ∧ P18.setGet r.raw = true :=
    Outcome.retWith_iff.mp (show (finish P18.x86 (staleRun.get ⟨1, by decide⟩)).outcome.retWith
      (fun r => P18.setGet r.raw) = true by decide +kernel)
  have hlive : Live read := show Live (staleRun.get ⟨2, by decide⟩) by decide +kernel
  obtain ⟨r, hr⟩ := returned_of_live (m := P18.x86) hlive
  obtain ⟨j, done, ⟨st, hj, -, -, -, hsent, -⟩, h1, h2⟩ :=
    h P18.x86 started (fun _ => rfl) staleRead 1 2 write read rfl rfl (by omega) rfl hwrite rfl r hr
  obtain rfl : j = 2 := by omega
  obtain rfl : read = st := Option.some.inj hj
  exact (sent_iff hr).mp hsent hlive

end InverterTools.Server
