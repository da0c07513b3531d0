import ExpressLinks.World

/-!
# Running on a machine in memory

A run of two steps runs the second in the state that the first leaves behind, be it a
world or anything else. Reading a text gives what the file tree holds and leaves the
world as it is.
-/

namespace ExpressLinks.Simulation

variable {σ α β : Type}

@[simp] theorem pure_run (a : α) (state : σ) : (pure a : StateM σ α) state = (a, state) := rfl

@[simp] theorem bind_run (first : StateM σ α) (next : α → StateM σ β) (state : σ) :
    (first >>= next) state = next (first state).1 (first state).2 := rfl

@[simp] theorem readText_run (path : String) (world : World) :
    (Machine.readText path : Simulation _) world = (FileTree.textOf (world.read path), world) :=
  rfl

end ExpressLinks.Simulation
