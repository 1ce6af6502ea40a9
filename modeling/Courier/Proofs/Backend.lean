import Courier.Backend

/-!
# Backends whose calls are written down

A program does not notice that its calls are written down: the answers and the state of the backend
stay what they are. So what is said about the calls of a program holds for all backends.

## Main definitions

* `Backend.Mirrors`: a program does the same whether or not its calls are written down.
* `Backend.connect`: how publishers and consumers come to be.
-/

namespace Courier.Backend

variable {σ α β : Type}

theorem run_bind_of_run {x : StateM σ α} {f : α → StateM σ β} {s s' : σ} {a : α}
    (h : x.run s = (a, s')) : (x >>= f).run s = (f a).run s' := by
  rw [StateT.run_bind, h]
  rfl

section

variable (k : Backend σ) (calls : List Call) (s : σ)

@[simp] theorem recorded_resolve (l : Locator) : (k.recorded.resolve l).run (calls, s) =
    (((k.resolve l).run s).1, calls ++ [.resolve l], ((k.resolve l).run s).2) := rfl

@[simp] theorem recorded_send (q : Identity) (m : Outbound) :
    (k.recorded.send q m).run (calls, s) =
      (((k.send q m).run s).1, calls ++ [.send q m], ((k.send q m).run s).2) := rfl

end

/-- A program that writes its calls down has the answer and the effect of another one, whatever has
been written down before. -/
def Mirrors (x : StateM (List Call × σ) α) (y : StateM σ α) : Prop :=
  ∀ calls s, y.run s = ((x.run (calls, s)).1, (x.run (calls, s)).2.2)

namespace Mirrors

theorem pure (a : α) : Mirrors (Pure.pure a) (Pure.pure a : StateM σ α) :=
  fun _ _ => rfl

theorem bind {x : StateM (List Call × σ) α} {y : StateM σ α} {f : α → StateM (List Call × σ) β}
    {g : α → StateM σ β} (h : Mirrors x y) (h' : ∀ a, Mirrors (f a) (g a)) :
    Mirrors (x >>= f) (y >>= g) := by
  intro calls s
  rw [run_bind_of_run (h calls s), StateT.run_bind]
  exact h' _ _ _

theorem resolve (k : Backend σ) (l : Locator) : Mirrors (k.recorded.resolve l) (k.resolve l) :=
  fun _ _ => rfl

theorem send (k : Backend σ) (q : Identity) (m : Outbound) :
    Mirrors (k.recorded.send q m) (k.send q m) :=
  fun _ _ => rfl

end Mirrors

/-! ### Checks before a queue is looked up -/

/-- Publishers and consumers come to be in the same way: when their settings have been `checked`,
their queue is looked up. -/
def connect (k : Backend σ) (checked : Except InvalidSettings Unit) (l : Locator)
    (make : Identity → α) : StateM σ (Except QueueError α) :=
  match checked with
  | .error e => pure (.error (.configuration e))
  | .ok () => do return (← k.resolve l).map make

section

variable (k : Backend σ) (l : Locator) (make : Identity → α) (s : σ)

/-- With settings that are not right nothing is looked up. -/
theorem run_connect_error (e : InvalidSettings) :
    (k.connect (.error e) l make).run s = (.error (.configuration e), s) := rfl

theorem run_connect_ok : (k.connect (.ok ()) l make).run s =
    (((k.resolve l).run s).1.map make, ((k.resolve l).run s).2) := rfl

theorem mirrors_connect (checked : Except InvalidSettings Unit) :
    Mirrors (k.recorded.connect checked l make) (k.connect checked l make) := by
  cases checked with
  | error e => exact .pure _
  | ok => exact .bind (.resolve k l) fun _ => .pure _

end

end Courier.Backend
