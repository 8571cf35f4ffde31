import LutFixture.Event
import LutFixture.Session

/-!
# Steps

The answer of an operation on a session: its result, the events in the order in which they
happened, and the session that it leaves. `Step.bind` puts one operation behind another and keeps
the events of both.
-/

namespace LutFixture

/-- What an operation answers, what happened during it, and what it leaves. -/
structure Step (α : Type) where
  /-- The answer. -/
  result : α
  /-- What happened, in order. -/
  events : List Event
  /-- The session after the operation. -/
  session : Session

namespace Step

variable {α β : Type}

/-- The same step with another answer. -/
def map (g : α → β) (x : Step α) : Step β := ⟨g x.result, x.events, x.session⟩

/-- One operation after another; the second may look at the answer of the first. -/
def bind (x : Step α) (g : α → Session → Step β) : Step β :=
  let y := g x.result x.session
  ⟨y.result, x.events ++ y.events, y.session⟩

@[simp] theorem result_map (g : α → β) (x : Step α) : (x.map g).result = g x.result := rfl

@[simp] theorem events_map (g : α → β) (x : Step α) : (x.map g).events = x.events := rfl

@[simp] theorem session_map (g : α → β) (x : Step α) : (x.map g).session = x.session := rfl

@[simp] theorem result_bind (x : Step α) (g : α → Session → Step β) :
    (x.bind g).result = (g x.result x.session).result := rfl

@[simp] theorem events_bind (x : Step α) (g : α → Session → Step β) :
    (x.bind g).events = x.events ++ (g x.result x.session).events := rfl

@[simp] theorem session_bind (x : Step α) (g : α → Session → Step β) :
    (x.bind g).session = (g x.result x.session).session := rfl

end Step

end LutFixture
