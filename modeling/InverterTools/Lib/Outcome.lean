import InverterTools.Lib.Bytes

/-! # How a call ends, and programs that read a buffer

`Outcome ε α` is the end of a C++ call: it returns, it throws, it runs into undefined behaviour
by leaving a buffer (`fault`), or it has not ended with what the environment has supplied so far
(`pending`).

`Probe ε α` is a program whose only effect is to read single bytes of a buffer.  `Probe.run`
executes it, `Probe.reads` lists the indices it reads.  The two agree by construction, and
`Probe.run_congr` is the non-interference theorem: buffers that hold the same bytes at the
indices one run reads give the same run.

`Raises P`, `Outcome.Throws P` and `Probe.Throws P` say that whatever is thrown has the property
`P`; each has one rule for every way to build a computation. -/

namespace InverterTools

/-- The end of a call. -/
inductive Outcome (ε α : Type) where
  | ret (a : α)
  | throw (e : ε)
  | fault
  | pending
deriving DecidableEq, Repr

namespace Outcome

variable {ε α β : Type}

/-- Sequencing: everything but a return ends the whole. -/
def bind : Outcome ε α → (α → Outcome ε β) → Outcome ε β
  | ret a, f => f a
  | throw e, _ => throw e
  | fault, _ => fault
  | pending, _ => pending

instance : Monad (Outcome ε) where
  pure := ret
  bind := bind

/-- A computation that can only return or throw. -/
def lift : Except ε α → Outcome ε α
  | .ok a => ret a
  | .error e => throw e

/-- The call is over and stayed inside its buffers. -/
def Ended (o : Outcome ε α) : Prop := o ≠ fault ∧ o ≠ pending

/-- The call has returned. -/
def isRet : Outcome ε α → Bool
  | ret _ => true
  | _ => false

/-- The call has returned a value with a property. -/
def retWith (p : α → Bool) : Outcome ε α → Bool
  | ret a => p a
  | _ => false

theorem retWith_iff {o : Outcome ε α} {p : α → Bool} :
    o.retWith p = true ↔ ∃ a, o = ret a ∧ p a = true := by
  cases o <;> simp [retWith]

theorem isRet_iff {o : Outcome ε α} : o.isRet = true ↔ ∃ a, o = ret a := by
  cases o <;> simp [isRet]

@[simp] theorem ret_bind (a : α) (f : α → Outcome ε β) : (ret a >>= f) = f a := rfl
@[simp] theorem throw_bind (e : ε) (f : α → Outcome ε β) : (throw e >>= f) = throw e := rfl
@[simp] theorem fault_bind (f : α → Outcome ε β) : ((fault : Outcome ε α) >>= f) = fault := rfl
@[simp] theorem pending_bind (f : α → Outcome ε β) : ((pending : Outcome ε α) >>= f) = pending :=
  rfl
@[simp] theorem pure_eq (a : α) : (pure a : Outcome ε α) = ret a := rfl
@[simp] theorem lift_ok (a : α) : lift (.ok a : Except ε α) = ret a := rfl
@[simp] theorem lift_error (e : ε) : lift (.error e : Except ε α) = throw e := rfl

theorem bind_eq_ret {o : Outcome ε α} {f : α → Outcome ε β} {b : β} :
    (o >>= f) = ret b ↔ ∃ a, o = ret a ∧ f a = ret b := by
  cases o <;> simp

theorem lift_eq_ret {x : Except ε α} {a : α} : lift x = ret a ↔ x = .ok a := by
  cases x <;> simp

theorem lift_bind (x : Except ε α) (f : α → Except ε β) :
    lift (x >>= f) = (lift x >>= fun a => lift (f a)) := by
  cases x <;> rfl

theorem lift_ended (x : Except ε α) : (lift x).Ended := by
  cases x <;> simp [Ended]

theorem ended_iff {o : Outcome ε α} : o.Ended ↔ (∃ a, o = ret a) ∨ ∃ e, o = throw e := by
  cases o <;> simp [Ended]

/-- The call returns when `P` holds, with a value that satisfies `R`, and does not end otherwise. -/
def ReturnsWhen (o : Outcome ε α) (P : Prop) (R : α → Prop) : Prop :=
  (P ∧ ∃ a, o = ret a ∧ R a) ∨ (¬ P ∧ o = pending)

theorem returnsWhen_ret {a : α} {R : α → Prop} (h : R a) :
    (ret a : Outcome ε α).ReturnsWhen True R := .inl ⟨trivial, a, rfl, h⟩

theorem ReturnsWhen.bind {o : Outcome ε α} {f : α → Outcome ε β} {P Q : Prop} {R : α → Prop}
    {S : β → Prop} (h : o.ReturnsWhen P R) (hf : ∀ a, R a → (f a).ReturnsWhen Q S) :
    (o >>= f).ReturnsWhen (P ∧ Q) S := by
  rcases h with ⟨hP, a, rfl, hR⟩ | ⟨hP, rfl⟩
  · rcases hf a hR with ⟨hQ, b, hb, hS⟩ | ⟨hQ, hb⟩
    · exact .inl ⟨⟨hP, hQ⟩, b, hb, hS⟩
    · exact .inr ⟨fun h => hQ h.2, hb⟩
  · exact .inr ⟨fun h => hP h.1, rfl⟩

theorem ReturnsWhen.congr {o : Outcome ε α} {P Q : Prop} {R : α → Prop} (h : o.ReturnsWhen P R)
    (hPQ : P ↔ Q) : o.ReturnsWhen Q R := by
  rwa [ReturnsWhen, ← hPQ]

end Outcome

/-! ### Results with errors -/

theorem bind_eq_ok {ε α β : Type} {x : Except ε α} {f : α → Except ε β} {b : β} :
    (x >>= f) = .ok b ↔ ∃ a, x = .ok a ∧ f a = .ok b := by
  cases x <;> simp [bind, Except.bind]

theorem map_eq_ok {ε α β : Type} {x : Except ε α} {f : α → β} {b : β} :
    f <$> x = .ok b ↔ ∃ a, x = .ok a ∧ f a = b := by
  cases x <;> simp [Functor.map, Except.map]

theorem pure_eq_ok {ε α : Type} {a b : α} : (pure a : Except ε α) = .ok b ↔ a = b := by
  simp [pure, Except.pure]

/-! ### What is thrown -/

/-- Every error of the computation has the property. -/
def Raises {ε α : Type} (P : ε → Prop) (x : Except ε α) : Prop := ∀ e, x = .error e → P e

section

variable {ε α β : Type} {P : ε → Prop}

@[simp] theorem raises_ok (a : α) : Raises P (.ok a) := by
  intro e he
  cases he

@[simp] theorem raises_pure (a : α) : Raises P (pure a) := raises_ok a

@[simp] theorem raises_error {e : ε} : Raises P (.error e : Except ε α) ↔ P e := by
  constructor
  · intro h
    exact h e rfl
  · intro h e' he
    cases he
    exact h

theorem raises_bind {x : Except ε α} {f : α → Except ε β} (hx : Raises P x)
    (hf : ∀ a, Raises P (f a)) : Raises P (x >>= f) := by
  cases x with
  | error e => exact raises_error.mpr (hx e rfl)
  | ok a => exact hf a

/-- The same read backwards: only what is reached counts. -/
theorem raises_bind_iff {x : Except ε α} {f : α → Except ε β} :
    Raises P (x >>= f) ↔ Raises P x ∧ ∀ a, x = .ok a → Raises P (f a) := by
  cases x with
  | error e =>
      refine ⟨fun h => ⟨raises_error.mpr (h e rfl), fun a ha => ?_⟩, fun h => ?_⟩
      · cases ha
      · exact raises_error.mpr (raises_error.mp h.1)
  | ok a =>
      constructor
      · intro h
        refine ⟨raises_ok a, fun b hb => ?_⟩
        cases hb
        exact h
      · intro h
        exact h.2 a rfl

@[simp] theorem raises_map {x : Except ε α} {f : α → β} : Raises P (f <$> x) ↔ Raises P x := by
  cases x with
  | error e => exact raises_error.trans raises_error.symm
  | ok a => exact iff_of_true (raises_ok (f a)) (raises_ok a)

theorem raises_mapM {f : α → Except ε β} (hf : ∀ a, Raises P (f a)) :
    ∀ l : List α, Raises P (l.mapM f)
  | [] => raises_pure []
  | a :: l => by
      rw [List.mapM_cons]
      apply raises_bind (hf a)
      intro b
      apply raises_bind (raises_mapM hf l)
      intro bs
      exact raises_pure (b :: bs)

/-- Every exception the call ends with has the property. -/
def Outcome.Throws (P : ε → Prop) (o : Outcome ε α) : Prop := ∀ e, o = .throw e → P e

@[simp] theorem Outcome.throws_ret (a : α) : (ret a : Outcome ε α).Throws P := by
  intro e he
  cases he

@[simp] theorem Outcome.throws_fault : (fault : Outcome ε α).Throws P := by
  intro e he
  cases he

@[simp] theorem Outcome.throws_pending : (pending : Outcome ε α).Throws P := by
  intro e he
  cases he

@[simp] theorem Outcome.throws_throw {e : ε} : (throw e : Outcome ε α).Throws P ↔ P e := by
  constructor
  · intro h
    exact h e rfl
  · intro h e' he
    cases he
    exact h

@[simp] theorem Outcome.throws_lift {x : Except ε α} : (lift x).Throws P ↔ Raises P x := by
  cases x with
  | error e => exact throws_throw.trans raises_error.symm
  | ok a => exact iff_of_true (throws_ret a) (raises_ok a)

theorem Outcome.throws_bind {o : Outcome ε α} {f : α → Outcome ε β} (ho : o.Throws P)
    (hf : ∀ a, (f a).Throws P) : (o >>= f).Throws P := by
  cases o with
  | ret a => exact hf a
  | throw e => exact throws_throw.mpr (ho e rfl)
  | fault => exact throws_fault
  | pending => exact throws_pending

theorem Outcome.throws_bind_iff {o : Outcome ε α} {f : α → Outcome ε β} :
    (o >>= f).Throws P ↔ o.Throws P ∧ ∀ a, o = ret a → (f a).Throws P := by
  cases o with
  | ret a => simp
  | throw e => simp
  | fault => simp
  | pending => simp

/-- The call returns when `C` holds, and throws an exception without the property `P` otherwise. -/
def Outcome.ReturnsOnly (P : ε → Prop) (o : Outcome ε α) (C : Prop) : Prop :=
  (C ∧ ∃ a, o = ret a) ∨ (¬ C ∧ ∃ e, o = throw e ∧ ¬ P e)

namespace Outcome.ReturnsOnly

theorem returns (a : α) : (ret a : Outcome ε α).ReturnsOnly P True := .inl ⟨trivial, a, rfl⟩

theorem bind {o : Outcome ε α} {f : α → Outcome ε β} {C D : Prop} (h : o.ReturnsOnly P C)
    (hf : ∀ a, o = ret a → (f a).ReturnsOnly P D) : (o >>= f).ReturnsOnly P (C ∧ D) := by
  rcases h with ⟨hC, a, rfl⟩ | ⟨hC, e, rfl, he⟩
  · rcases hf a rfl with ⟨hD, hret⟩ | ⟨hD, hthrow⟩
    · exact .inl ⟨⟨hC, hD⟩, hret⟩
    · exact .inr ⟨fun h => hD h.2, hthrow⟩
  · exact .inr ⟨fun h => hC h.1, e, rfl, he⟩

theorem congr {o : Outcome ε α} {C D : Prop} (h : o.ReturnsOnly P C) (hCD : C ↔ D) :
    o.ReturnsOnly P D := by
  rwa [ReturnsOnly, ← hCD]

theorem throws_iff {o : Outcome ε α} {C : Prop} (h : o.ReturnsOnly P C) : o.Throws P ↔ C := by
  rcases h with ⟨hC, a, rfl⟩ | ⟨hC, e, rfl, he⟩
  · exact iff_of_true (throws_ret a) hC
  · exact iff_of_false (fun h => he (throws_throw.mp h)) hC

end Outcome.ReturnsOnly

end

/-- A program that reads single bytes of a buffer, and may throw or leave a container. -/
inductive Probe (ε α : Type) where
  | ret (a : α)
  | throw (e : ε)
  | fault
  | read (i : ℕ) (k : UInt8 → Probe ε α)

namespace Probe

variable {ε α β : Type}

/-- Sequencing of programs. -/
def bind : Probe ε α → (α → Probe ε β) → Probe ε β
  | ret a, f => f a
  | throw e, _ => throw e
  | fault, _ => fault
  | read i k, f => read i (fun b => (k b).bind f)

instance : Monad (Probe ε) where
  pure := ret
  bind := bind

/-- A step that reads nothing. -/
def lift : Except ε α → Probe ε α
  | .ok a => ret a
  | .error e => throw e

/-- The byte at index `i`. -/
def byte (i : ℕ) : Probe ε UInt8 := read i ret

/-- The `n` bytes from index `off` on, read in order. -/
def range (off : ℕ) : ℕ → Probe ε Bytes
  | 0 => pure []
  | n + 1 => do
      let b ← byte off
      let s ← range (off + 1) n
      pure (b :: s)

/-- Execution; a read outside the buffer is undefined. -/
def run : Probe ε α → Bytes → Outcome ε α
  | ret a, _ => .ret a
  | throw e, _ => .throw e
  | fault, _ => .fault
  | read i k, mem => match mem[i]? with
      | some b => (k b).run mem
      | none => .fault

/-- The indices an execution reads, in order. -/
def reads : Probe ε α → Bytes → List ℕ
  | ret _, _ => []
  | throw _, _ => []
  | fault, _ => []
  | read i k, mem => i :: match mem[i]? with
      | some b => (k b).reads mem
      | none => []

@[simp] theorem pure_eq (a : α) : (pure a : Probe ε α) = ret a := rfl
@[simp] theorem ret_bind (a : α) (f : α → Probe ε β) : (ret a >>= f) = f a := rfl
@[simp] theorem throw_bind (e : ε) (f : α → Probe ε β) : (throw e >>= f) = throw e := rfl
@[simp] theorem fault_bind (f : α → Probe ε β) : ((fault : Probe ε α) >>= f) = fault := rfl
@[simp] theorem lift_ok (a : α) : lift (.ok a : Except ε α) = ret a := rfl
@[simp] theorem lift_error (e : ε) : lift (.error e : Except ε α) = throw e := rfl
@[simp] theorem run_ret (a : α) (mem : Bytes) : (ret a : Probe ε α).run mem = .ret a := rfl
@[simp] theorem run_throw (e : ε) (mem : Bytes) : (throw e : Probe ε α).run mem = .throw e := rfl
@[simp] theorem run_fault (mem : Bytes) : (fault : Probe ε α).run mem = .fault := rfl
@[simp] theorem reads_ret (a : α) (mem : Bytes) : (ret a : Probe ε α).reads mem = [] := rfl
@[simp] theorem reads_throw (e : ε) (mem : Bytes) : (throw e : Probe ε α).reads mem = [] := rfl
@[simp] theorem reads_fault (mem : Bytes) : (fault : Probe ε α).reads mem = [] := rfl
@[simp] theorem run_lift (x : Except ε α) (mem : Bytes) : (lift x).run mem = .lift x := by
  cases x <;> rfl
@[simp] theorem reads_lift (x : Except ε α) (mem : Bytes) : (lift x).reads mem = [] := by
  cases x <;> rfl

theorem run_bind (p : Probe ε α) (f : α → Probe ε β) (mem : Bytes) :
    (p >>= f).run mem = (p.run mem >>= fun a => (f a).run mem) := by
  induction p with
  | ret a => rfl
  | throw e => rfl
  | fault => rfl
  | read i k ih =>
      show (read i (fun b => k b >>= f)).run mem = _
      rw [run, run]
      cases mem[i]? with
      | none => rfl
      | some b => exact ih b

theorem reads_bind (p : Probe ε α) (f : α → Probe ε β) (mem : Bytes) :
    (p >>= f).reads mem = p.reads mem ++ match p.run mem with
      | .ret a => (f a).reads mem
      | _ => [] := by
  induction p with
  | ret a => rfl
  | throw e => rfl
  | fault => rfl
  | read i k ih =>
      show (read i (fun b => k b >>= f)).reads mem = _
      rw [reads, reads, run]
      cases mem[i]? with
      | none => rfl
      | some b => rw [List.cons_append]; exact congrArg _ (ih b)

theorem reads_bind_of_ret {p : Probe ε α} {f : α → Probe ε β} {mem : Bytes} {a : α}
    (h : p.run mem = .ret a) : (p >>= f).reads mem = p.reads mem ++ (f a).reads mem := by
  rw [reads_bind, h]

theorem run_ne_pending (p : Probe ε α) (mem : Bytes) : p.run mem ≠ .pending := by
  induction p with
  | ret a => simp
  | throw e => simp
  | fault => simp
  | read i k ih =>
      rw [run]
      cases mem[i]? with
      | none => simp
      | some b => exact ih b

/-- **Non-interference**: a run is determined by the bytes at the indices it reads. -/
theorem run_congr {p : Probe ε α} {mem mem' : Bytes}
    (h : ∀ i ∈ p.reads mem, mem[i]? = mem'[i]?) :
    p.run mem' = p.run mem ∧ p.reads mem' = p.reads mem := by
  induction p with
  | ret a => exact ⟨rfl, rfl⟩
  | throw e => exact ⟨rfl, rfl⟩
  | fault => exact ⟨rfl, rfl⟩
  | read i k ih =>
      have hi : mem[i]? = mem'[i]? := h i (by simp [reads])
      rw [run, run, reads, reads, ← hi]
      cases hb : mem[i]? with
      | none => exact ⟨rfl, rfl⟩
      | some b =>
          have hk : ∀ j ∈ (k b).reads mem, mem[j]? = mem'[j]? := fun j hj =>
            h j (by rw [reads, hb]; exact List.mem_cons_of_mem _ hj)
          obtain ⟨h1, h2⟩ := ih b hk
          exact ⟨h1, congrArg _ h2⟩

/-- A run that reads below `n` only is determined by the first `n` bytes. -/
theorem run_congr_take {p : Probe ε α} {mem mem' : Bytes} {n : ℕ}
    (hr : ∀ i ∈ p.reads mem, i < n) (h : mem.take n = mem'.take n) :
    p.run mem' = p.run mem ∧ p.reads mem' = p.reads mem := by
  refine run_congr fun i hi => ?_
  have hin := hr i hi
  rw [← List.getElem?_take_of_lt hin, h, List.getElem?_take_of_lt hin]

theorem run_byte_of_getElem? {i : ℕ} {mem : Bytes} {b : UInt8} (h : mem[i]? = some b) :
    (byte i : Probe ε UInt8).run mem = .ret b := by
  rw [byte, run, h]
  rfl

theorem run_byte {i : ℕ} {mem : Bytes} (h : i < mem.length) :
    (byte i : Probe ε UInt8).run mem = .ret mem[i] :=
  run_byte_of_getElem? (List.getElem?_eq_getElem h)

@[simp] theorem reads_byte (i : ℕ) (mem : Bytes) : (byte i : Probe ε UInt8).reads mem = [i] := by
  rw [byte, reads]
  cases mem[i]? <;> rfl

theorem run_range {mem : Bytes} : ∀ {off n : ℕ}, off + n ≤ mem.length →
    (range off n : Probe ε Bytes).run mem = .ret ((mem.drop off).take n)
  | off, 0, _ => rfl
  | off, n + 1, h => by
      have hoff : off < mem.length := by omega
      rw [range, run_bind, run_byte hoff, Outcome.ret_bind, run_bind,
        run_range (show off + 1 + n ≤ mem.length by omega), Outcome.ret_bind,
        List.drop_eq_getElem_cons hoff, List.take_succ_cons]
      rfl

theorem reads_range {mem : Bytes} : ∀ {off n : ℕ}, off + n ≤ mem.length →
    (range off n : Probe ε Bytes).reads mem = List.range' off n
  | off, 0, _ => rfl
  | off, n + 1, h => by
      have hoff : off < mem.length := by omega
      rw [range, reads_bind_of_ret (run_byte hoff), reads_byte,
        reads_bind_of_ret (run_range (by omega)), reads_range (by omega), pure_eq, reads_ret,
        List.append_nil, List.range'_succ]
      rfl

/-! ### Confined runs -/

/-- The run reads below `n` only and leaves no container. -/
def Confined (p : Probe ε α) (n : ℕ) (mem : Bytes) : Prop :=
  (∀ i ∈ p.reads mem, i < n) ∧ p.run mem ≠ .fault

@[simp] theorem confined_ret (a : α) (n : ℕ) (mem : Bytes) :
    (ret a : Probe ε α).Confined n mem := by
  simp [Confined]

@[simp] theorem confined_throw (e : ε) (n : ℕ) (mem : Bytes) :
    (throw e : Probe ε α).Confined n mem := by
  simp [Confined]

@[simp] theorem confined_lift (x : Except ε α) (n : ℕ) (mem : Bytes) :
    (lift x).Confined n mem := by
  cases x <;> simp

theorem confined_bind {p : Probe ε α} {f : α → Probe ε β} {n : ℕ} {mem : Bytes} :
    (p >>= f).Confined n mem ↔
      p.Confined n mem ∧ ∀ a, p.run mem = .ret a → (f a).Confined n mem := by
  unfold Confined
  rw [reads_bind, run_bind]
  cases h : p.run mem with
  | ret a => simp [or_imp, forall_and, and_assoc]
  | throw e => simp
  | fault => simp
  | pending => simp

theorem confined_byte {i n : ℕ} {mem : Bytes} (h : i < mem.length) :
    (byte i : Probe ε UInt8).Confined n mem ↔ i < n := by
  simp [Confined, run_byte h]

theorem confined_range {off k n : ℕ} {mem : Bytes} (h : off + k ≤ mem.length) :
    (range off k : Probe ε Bytes).Confined n mem ↔ k = 0 ∨ off + k ≤ n := by
  rw [Confined, reads_range h, run_range h]
  simp only [List.mem_range'_1, ne_eq, reduceCtorEq, not_false_eq_true, and_true, and_imp]
  constructor
  · intro hr
    rcases Nat.eq_zero_or_pos k with hk | hk
    · exact .inl hk
    · have := hr (off + (k - 1)) (by omega) (by omega)
      omega
  · intro hk i h1 h2
    omega

/-- Buffers with the same first `n` bytes give a run confined to these the same end. -/
theorem Confined.run_eq {p : Probe ε α} {n : ℕ} {mem mem' : Bytes} (h : p.Confined n mem)
    (hm : mem.take n = mem'.take n) : p.run mem' = p.run mem :=
  (run_congr_take h.1 hm).1

/-! ### What a program throws -/

/-- Whatever the buffer is, what the program throws has the property. -/
def Throws (P : ε → Prop) (p : Probe ε α) : Prop := ∀ mem, (p.run mem).Throws P

section

variable {P : ε → Prop}

@[simp] theorem throws_ret (a : α) : (ret a : Probe ε α).Throws P :=
  fun _ => Outcome.throws_ret a

@[simp] theorem throws_pure (a : α) : (pure a : Probe ε α).Throws P := throws_ret a

@[simp] theorem throws_fault : (fault : Probe ε α).Throws P := fun _ => Outcome.throws_fault

@[simp] theorem throws_throw {e : ε} : (throw e : Probe ε α).Throws P ↔ P e := by
  constructor
  · intro h
    exact h [] e rfl
  · intro h mem
    exact Outcome.throws_throw.mpr h

@[simp] theorem throws_lift {x : Except ε α} : (lift x).Throws P ↔ Raises P x := by
  constructor
  · intro h
    have := h []
    rwa [run_lift, Outcome.throws_lift] at this
  · intro h mem
    rwa [run_lift, Outcome.throws_lift]

theorem throws_bind {p : Probe ε α} {f : α → Probe ε β} (hp : p.Throws P)
    (hf : ∀ a, (f a).Throws P) : (p >>= f).Throws P := by
  intro mem
  rw [run_bind]
  exact Outcome.throws_bind (hp mem) fun a => hf a mem

@[simp] theorem throws_byte (i : ℕ) : (byte i : Probe ε UInt8).Throws P := by
  intro mem
  rw [byte, run]
  cases mem[i]? with
  | none => exact Outcome.throws_fault
  | some b => exact Outcome.throws_ret b

@[simp] theorem throws_range (off n : ℕ) : (range off n : Probe ε Bytes).Throws P := by
  induction n generalizing off with
  | zero => exact throws_pure []
  | succ n ih =>
      rw [range]
      refine throws_bind (throws_byte off) ?_
      intro b
      refine throws_bind (ih (off + 1)) ?_
      intro s
      exact throws_pure (b :: s)

end

end Probe

end InverterTools
