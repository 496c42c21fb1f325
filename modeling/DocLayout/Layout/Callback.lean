import DocLayout.Doc.Basic

/-!
# Calling callbacks

The host of the documents defines what its own callbacks do.  It may keep a state of its own, which
is threaded through all calls.  The callbacks of `align` and `width` are the library's, and need
the host only where a report is one of its functions.
-/

namespace DocLayout

/-- Computations that may call the host: they may fail, and the host's state is kept either way. -/
abbrev HostM (σ : Type) := ExceptT Error (StateM σ)

/-- What the custom callbacks do: the label and the argument decide the value, and the state. -/
abbrev Host (σ : Type) := (label : Nat) → (argument : Int) → HostM σ Value

variable {σ : Type} (host : Host σ)

mutual

/-- The value of a value as a function. -/
def Value.call : Value → Int → HostM σ Value
  | .function callback, argument => callback.call argument
  | value, _ => throw (.notCallable value.kind)

/-- The value of a callback.  The callbacks that the library makes on the way are known by what they
hold. -/
def Callback.call : Callback → Int → HostM σ Value
  | .custom label, argument => host label argument
  | .align inner, column => return .doc (.nesting ⟨.shared, .function (.alignAt column inner)⟩)
  | .alignAt column inner, indent => return .doc (.nest (.int (column - indent)) inner)
  | .width inner report, start =>
      return .doc (inner.append (.column ⟨.shared, .function (.widthFrom start report)⟩))
  | .widthFrom start report, column => report.call (column - start)

end

namespace Callback

@[simp]
theorem call_custom (label : Nat) (argument : Int) :
    (Callback.custom label).call host argument = host label argument := rfl

@[simp]
theorem call_align (inner : Doc) (column : Int) :
    (Callback.align inner).call host column =
      pure (.doc (.nesting ⟨.shared, .function (.alignAt column inner)⟩)) := rfl

@[simp]
theorem call_alignAt (column : Int) (inner : Doc) (indent : Int) :
    (Callback.alignAt column inner).call host indent =
      pure (.doc (.nest (.int (column - indent)) inner)) := rfl

@[simp]
theorem call_width (inner : Doc) (report : Value) (start : Int) :
    (Callback.width inner report).call host start =
      pure (.doc (inner.append (.column ⟨.shared, .function (.widthFrom start report)⟩))) := rfl

@[simp]
theorem call_widthFrom (start : Int) (report : Value) (column : Int) :
    (Callback.widthFrom start report).call host column = report.call host (column - start) := rfl

end Callback

/-- The document that a callback makes of an argument. -/
def Value.resolve (callback : Value) (argument : Int) : HostM σ Doc := do
  let result ← callback.call host argument
  match Doc.ofValue result with
  | .ok document => return document
  | .error cause => throw cause

end DocLayout
