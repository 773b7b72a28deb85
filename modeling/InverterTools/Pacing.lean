import InverterTools.History

/-! # The delay between device transactions

With `--delay` the server sleeps before a command until `delay_` milliseconds have passed since
`endExecutionTime_`.  That is set when a command returns, not when it throws, and the argument of
`usleep` has 32 bits.  `Paced` is the condition under which the sleep is long enough:
`waits_iff_paced` says so of one call, `transactions_paced` of runs. -/

namespace InverterTools.Server

open P18 (Machine)

/-- The call gets to the device: the cache does not answer, and the request can be packed. -/
def Transacts (m : Machine) (st : Server × Call) : Prop :=
  ¬ Live st ∧ (P18.packRequest m st.2.command st.2.arguments).isOk = true

instance (m : Machine) (st : Server × Call) : Decidable (Transacts m st) :=
  inferInstanceAs (Decidable (_ ∧ _))

/-- When the last transaction of a run ended. -/
def lastEnd (m : Machine) (run : List (Server × Call)) : Option UInt64 :=
  ((run.filter (fun st => Transacts m st)).getLast?).map (fun st => st.2.env.done)

/-- A clock in milliseconds that does not go back, and a `usleep` that sleeps long enough. -/
structure Timed (m : Machine) (run : List (Server × Call)) : Prop where
  clocked : Clocked run
  slept : ∀ st ∈ run, st.2.env.delayNow.toNat + (finish m st).slept.toNat / 1000 ≤
    st.2.env.device.started.toNat

/-- Every transaction of a run starts at least `delay` milliseconds after the ones before have
ended. -/
def Spaced (m : Machine) (delay : UInt64) (run : List (Server × Call)) : Prop :=
  ∀ before st after, run = before ++ st :: after → Transacts m st → ∀ old ∈ before,
    Transacts m old → old.2.env.done.toNat + delay.toNat ≤ st.2.env.device.started.toNat

/-- The time is over anyway; or the last transaction has left its end in `endExecutionTime_`, and
what is left to wait fits 32 bits as microseconds. -/
def PacedFrom (s : Server) (now ended : UInt64) : Prop :=
  ended.toNat + s.delay.toNat ≤ now.toNat ∨
    (s.endExecutionTime = ended ∧ ended ≠ 0 ∧
      (ended.toNat + s.delay.toNat - now.toNat) * 1000 < 2 ^ 32)

instance (s : Server) (now ended : UInt64) : Decidable (PacedFrom s now ended) :=
  inferInstanceAs (Decidable (_ ∨ _))

/-- The call meets the condition after the transactions of a run. -/
def Paced (m : Machine) (before : List (Server × Call)) (st : Server × Call) : Prop :=
  ∀ ended ∈ lastEnd m before, PacedFrom st.1 st.2.env.delayNow ended

/-! ### One call -/

theorem slept_of_transacts {m : Machine} {st : Server × Call} (h : Transacts m st) :
    (finish m st).slept = st.1.delayFor st.2.env.delayNow := by
  have hc : st.1.cached st.2.command st.2.arguments st.2.env.cacheNow = none := by
    have hlive := h.1
    rwa [Live, Option.not_isSome_iff_eq_none] at hlive
  simp only [finish, Call.run, executeCommand, hc]
  split <;> rfl

theorem delayFor_toNat {s : Server} {now : UInt64} (hend : s.endExecutionTime ≤ now) :
    (s.delayFor now).toNat = if s.endExecutionTime = 0 then 0 else
      (s.endExecutionTime.toNat + s.delay.toNat - now.toNat) * 1000 % 2 ^ 32 := by
  have hdiff := UInt64.toNat_sub_of_le _ _ hend
  rw [UInt64.le_iff_toNat_le] at hend
  unfold delayFor
  by_cases h0 : s.endExecutionTime = 0
  · simp [h0]
  by_cases hd : s.delay = 0
  · have : s.endExecutionTime.toNat + s.delay.toNat - now.toNat = 0 := by
      rw [hd]
      exact Nat.sub_eq_zero_of_le hend
    rw [if_neg (fun h => h.1 hd), if_neg h0, this]
    rfl
  rw [if_pos ⟨hd, h0⟩, if_neg h0]
  by_cases hlt : now - s.endExecutionTime < s.delay
  · have hleft := UInt64.toNat_sub_of_le _ _ (UInt64.le_of_lt hlt)
    rw [if_pos hlt, UInt64.toNat_toUInt32, UInt64.toNat_mul, hleft, hdiff]
    rw [UInt64.lt_iff_toNat_lt, hdiff] at hlt
    have hthousand : (1000 : UInt64).toNat = 1000 := rfl
    rw [hthousand]
    omega
  · rw [if_neg hlt]
    rw [UInt64.lt_iff_toNat_lt, hdiff] at hlt
    have hleft : s.endExecutionTime.toNat + s.delay.toNat - now.toNat = 0 := by omega
    rw [hleft]
    rfl

/-- Under the condition the sleep is long enough. -/
theorem waits_of_paced {s : Server} {now ended : UInt64} {started : ℕ} (hnow : ended ≤ now)
    (hpaced : PacedFrom s now ended)
    (hstarted : now.toNat + (s.delayFor now).toNat / 1000 ≤ started) :
    ended.toNat + s.delay.toNat ≤ started := by
  rcases hpaced with hover | ⟨rfl, h0, hfits⟩
  · omega
  · rw [delayFor_toNat hnow, if_neg h0] at hstarted
    omega

/-- **One call**: whenever the transaction starts after the sleep, it starts at least `delay_`
milliseconds after the last one, exactly under the condition. -/
theorem waits_iff_paced {s : Server} {now ended : UInt64} (hend : s.endExecutionTime ≤ ended)
    (hnow : ended ≤ now) :
    (∀ started, now.toNat + (s.delayFor now).toNat / 1000 ≤ started →
      ended.toNat + s.delay.toNat ≤ started) ↔ PacedFrom s now ended := by
  constructor
  · intro h
    have hleast := h _ le_rfl
    have hslept := delayFor_toNat (UInt64.le_trans hend hnow)
    have hzero (t : UInt64) : t = 0 ↔ t.toNat = 0 := by
      rw [← UInt64.toNat_inj]
      rfl
    have hequal : s.endExecutionTime = ended ↔ s.endExecutionTime.toNat = ended.toNat :=
      UInt64.toNat_inj.symm
    rw [UInt64.le_iff_toNat_le] at hend hnow
    simp only [PacedFrom, hequal, ne_eq, hzero] at hslept ⊢
    split_ifs at hslept <;> omega
  · intro hpaced started hstarted
    exact waits_of_paced hnow hpaced hstarted

/-! ### Runs -/

section

variable {m : Machine} {before : List (Server × Call)} {st old : Server × Call}

theorem Clocked.le (h : Clocked (before ++ [st])) (hold : old ∈ before) {t : UInt64}
    (ht : t ∈ readings st) : old.2.env.done ≤ t := by
  rw [Clocked, List.flatMap_append, List.pairwise_append] at h
  refine h.2.2 _ (List.mem_flatMap.mpr ⟨old, hold, ?_⟩) t
    (List.mem_flatMap.mpr ⟨st, List.mem_singleton_self st, ht⟩)
  simp [readings]

/-- The last transaction ended after all the others. -/
theorem exists_lastEnd (hclock : Clocked before) (hold : old ∈ before) (ht : Transacts m old) :
    ∃ last ∈ before, lastEnd m before = some last.2.env.done ∧
      old.2.env.done ≤ last.2.env.done := by
  have hmem : old ∈ before.filter (fun st => Transacts m st) := by
    simp [List.mem_filter, hold, ht]
  rcases List.eq_nil_or_concat (before.filter fun st => Transacts m st) with hnil | ⟨l, last, heq⟩
  · rw [hnil] at hmem
    cases hmem
  · have hlast : last ∈ before := by
      have : last ∈ before.filter (fun st => Transacts m st) := by simp [heq]
      exact (List.mem_filter.mp this).1
    refine ⟨last, hlast, by simp [lastEnd, heq], ?_⟩
    have hsub : List.Sublist (l ++ [last]) before := by
      rw [← List.concat_eq_append, ← heq]
      exact List.filter_sublist
    have hsorted : Clocked (l ++ [last]) := hclock.sublist (hsub.flatMap readings)
    rw [heq, List.concat_eq_append, List.mem_append, List.mem_singleton] at hmem
    rcases hmem with hmem | rfl
    · exact hsorted.le hmem (by simp [readings])
    · exact UInt64.le_refl _

end

/-- **The delay is kept** in every run whose calls all meet the condition. -/
theorem transactions_paced (m : Machine) (s : Server) (calls : List Call)
    (htimed : Timed m (trace (next m) s calls))
    (hpaced : ∀ before st after, trace (next m) s calls = before ++ st :: after →
      Transacts m st → Paced m before st) :
    Spaced m s.delay (trace (next m) s calls) := by
  intro before st after heq ht old hold hold_ht
  have hprev : Clocked (before ++ [st]) := by
    have hsub : List.Sublist (before ++ [st]) (trace (next m) s calls) := by
      rw [heq]
      exact (List.Sublist.refl before).append (by simp)
    exact htimed.clocked.sublist (hsub.flatMap readings)
  have hbefore : Clocked before :=
    hprev.sublist ((List.sublist_append_left before [st]).flatMap readings)
  have hst : st ∈ trace (next m) s calls := by
    rw [heq]
    simp
  have hsettings : st.1.settings = s.settings :=
    @trace_invariant _ _ (next m) (fun s' => s'.settings = s.settings)
      (fun s' call h => (settings_next m s' call).trans h) s calls rfl st hst
  have hdelay : st.1.delay = s.delay := congrArg (fun settings => settings.2.2.1) hsettings
  obtain ⟨last, hlast, hend, hle⟩ := exists_lastEnd hbefore hold hold_ht
  have hnow : last.2.env.done ≤ st.2.env.delayNow := hprev.le hlast (by simp [readings])
  have hslept := htimed.slept st hst
  rw [slept_of_transacts ht] at hslept
  have hwaits := waits_of_paced hnow (hpaced before st after heq ht _ hend) hslept
  rw [hdelay] at hwaits
  rw [UInt64.le_iff_toNat_le] at hle
  omega

/-- A daemon with a delay of 400 ms, just started. -/
def delayed : Server := { started with delay := 400 }

/-- `get-mode` at 100 ms, then `get-protocol-id` at 200 ms, which waits until 500 ms. -/
def pacedCalls : List Call := [readMode 100,
  ⟨.getProtocolID, [], { answeredAt 500 (ascii "^D00518") with cacheNow := 200, delayNow := 200 }⟩]

/-- The second transaction waits for the first one. -/
theorem transactions_paced_second :
    Spaced P18.x86 400 (trace (next P18.x86) delayed pacedCalls) := by
  refine transactions_paced P18.x86 delayed pacedCalls ⟨by decide, by decide +kernel⟩ ?_
  intro before st after heq ht ended hended
  match before, heq with
  | [], heq => cases hended
  | [old], heq =>
      obtain ⟨rfl, htail⟩ := List.cons.inj heq
      obtain ⟨rfl, -⟩ := List.cons.inj htail
      have hlast : lastEnd P18.x86 [(delayed, readMode 100)] = some 100 := by decide
      obtain rfl := Option.some.inj (hlast.symm.trans hended)
      exact .inr (by decide +kernel)
  | _ :: _ :: _, heq => simp [pacedCalls] at heq

/-- The first report cannot be written at 100 ms, and the mode is read at 101 ms. -/
def unpacedCalls : List Call := [unwritten 100, readMode 101]

/-- After an error nothing waits: the second transaction starts 1 ms after the first one. -/
theorem transactions_unpaced : ¬ ∀ (m : Machine) (device : Voltronic.Device) (delay : UInt64)
    (calls : List Call), 0 < delay →
      Timed m (trace (next m) { init device with delay := delay } calls) →
      Spaced m delay (trace (next m) { init device with delay := delay } calls) := by
  intro h
  have hspaced := h P18.x86 started.device 400 unpacedCalls (by decide)
    ⟨by decide, by decide +kernel⟩
  have hearly := hspaced [(delayed, unwritten 100)] _ [] rfl (by decide)
    (delayed, unwritten 100) (List.mem_singleton_self _) (by decide)
  exact absurd hearly (by decide)

end InverterTools.Server
