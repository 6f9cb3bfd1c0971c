/-!
# Tracing

Computations can offer trace lines beside their value. Whether the lines are shown is decided
outside: a `Traced` value is the same value whether or not anybody looks at its lines.
-/

namespace CilIsa

/-- A message on a named channel. -/
structure TraceLine where
  channel : String
  message : String
  deriving DecidableEq

/-- The printed line. -/
def TraceLine.text (l : TraceLine) : String := "[cil:" ++ l.channel ++ "] " ++ l.message ++ "\n"

/-- What is shown of some lines: all of them in order when tracing is on, nothing when it is off. -/
def traceText (on : Bool) (lines : List TraceLine) : String :=
  if on then String.join (lines.map TraceLine.text) else ""

@[simp] theorem traceText_off (lines : List TraceLine) : traceText false lines = "" := rfl

@[simp] theorem traceText_nil (on : Bool) : traceText on [] = "" := by cases on <;> rfl

/-- Whether a setting turns tracing on. An absent or empty setting and the text `0` do not, any
other text does. -/
def traceRequested : Option String → Bool
  | none => false
  | some setting => setting != "" && setting != "0"

/-- What can happen while tracing may be on. -/
inductive TraceEvent where
  /-- Tracing is turned on or off. -/
  | switch (on : Bool)
  /-- A line is offered. -/
  | line (l : TraceLine)
  deriving DecidableEq

/-- For each event in turn, whether tracing is on after it, and what the event shows. -/
def traceEvents (on : Bool) : List TraceEvent → List (Bool × String)
  | [] => []
  | .switch on :: rest => (on, "") :: traceEvents on rest
  | .line l :: rest => (on, traceText on [l]) :: traceEvents on rest

/-- A value together with the trace lines offered while it was computed. -/
@[ext]
structure Traced (α : Type) where
  value : α
  lines : List TraceLine := []

namespace Traced

instance : Monad Traced where
  pure a := ⟨a, []⟩
  bind x f := ⟨(f x.value).value, x.lines ++ (f x.value).lines⟩

/-- Offers one line. -/
def emit (channel message : String) : Traced Unit := ⟨(), [⟨channel, message⟩]⟩

variable {α β : Type}

@[simp] theorem value_pure (a : α) : (pure a : Traced α).value = a := rfl

@[simp] theorem lines_pure (a : α) : (pure a : Traced α).lines = [] := rfl

@[simp] theorem value_bind (x : Traced α) (f : α → Traced β) :
    (x >>= f).value = (f x.value).value := rfl

@[simp] theorem lines_bind (x : Traced α) (f : α → Traced β) :
    (x >>= f).lines = x.lines ++ (f x.value).lines := rfl

@[simp] theorem lines_emit (channel message : String) :
    (emit channel message).lines = [⟨channel, message⟩] := rfl

end Traced

end CilIsa
