/-! A value that one user at a time may hold. An interrupt that finds it held goes away empty-handed:
whoever holds it will do the work. -/

namespace InetHost

structure Shared (σ : Type) where
  content : σ
  held : Bool

namespace Shared

variable {σ ε α : Type}

def new (content : σ) : Shared σ := ⟨content, false⟩

def hold (s : Shared σ) : Shared σ := { s with held := true }

def release (s : Shared σ) : Shared σ := { s with held := false }

def use (s : Shared σ) (f : σ → Except ε (α × σ)) : Except ε (α × Shared σ) := do
  let (a, content) ← f s.content
  return (a, { s with content })

def tryUse (s : Shared σ) (f : σ → Except ε (α × σ)) : Except ε (Option α × Shared σ) :=
  if s.held then return (none, s)
  else do
    let (a, s) ← s.use f
    return (some a, s)

end Shared

end InetHost
