import ArmReach.Kinematics.Limit
/-!
# Why an operation failed

Every failure of the arm, the solvers and the model reader is a `Failure`: a cause, possibly
wrapped in context (`wrap`) or joined with a second failure (`both`). Its text is
`Failure.message`, and `Failure.kind` classifies it by the first of these found anywhere
inside: a search that did not converge, a cancelled run, a wrong number of joint values, a
value outside a joint's range, missing model information.
-/

namespace ArmReach

/-- What a search that gave up reports: attempts made and the remaining position and
rotation differences. -/
structure NotConverged where
  attempts : Int
  positionDiff : Vec3
  rotationDiff : Vec3
  deriving Inhabited

/-- The cause of a failure, with the context it was reported in. -/
inductive Failure where
  /-- `given` joint values where the arm has `expected` joints. -/
  | incorrectDof (given expected : Int)
  /-- A joint value outside the joint's range. -/
  | outOfBounds (joint : Int) (value : Float) (limit : Limit)
  | notConverged (info : NotConverged)
  /-- The run was cancelled. -/
  | canceled
  /-- There was no model to read. -/
  | noModelInformation
  | plain (text : String)
  /-- A failure reported with context in front: `context: cause`. -/
  | wrap (context : String) (cause : Failure)
  /-- Two failures together: `first; second`. -/
  | both (first second : Failure)
  deriving Inhabited

/-- The classes of failures, in the order in which they are recognised. -/
inductive FailureKind where
  | notConverged
  | canceled
  | incorrectDof
  | outOfBounds
  | noModelInformation
  | other
  deriving DecidableEq, Repr

namespace NotConverged

/-- `ik did not converge after N attempts: position diff (…), rotation diff (…)`. -/
def message (e : NotConverged) : String :=
  s!"ik did not converge after {e.attempts} attempts: position diff " ++
    e.positionDiff.render ++ ", rotation diff " ++ e.rotationDiff.render

end NotConverged

namespace Failure

/-- The text of a failure. -/
def message : Failure → String
  | .incorrectDof given expected =>
    s!"number of inputs does not match degrees of freedom. Expected {expected}, given {given}: " ++
      "incorrect number of inputs"
  | .outOfBounds i v l =>
    s!"joint {i}: " ++ fixedText 5 v ++ " not within [" ++ fixedText 5 l.min ++ ", " ++
      fixedText 5 l.max ++ "]: input out of bounds"
  | .notConverged e => e.message
  | .canceled => "context canceled"
  | .noModelInformation => "no model information"
  | .plain t => t
  | .wrap c f => c ++ ": " ++ f.message
  | .both a b => a.message ++ "; " ++ b.message

/-- The first report of a search that gave up, looking through context and into both parts
of a joined failure, first part first. -/
def notConverged? : Failure → Option NotConverged
  | .notConverged e => some e
  | .wrap _ f => f.notConverged?
  | .both a b => a.notConverged? <|> b.notConverged?
  | _ => none

/-- Whether a cause of the given shape occurs anywhere inside. -/
def mentions (p : Failure → Bool) : Failure → Bool
  | .wrap c f => p (.wrap c f) || mentions p f
  | .both a b => p (.both a b) || mentions p a || mentions p b
  | f => p f

/-- Whether the failure is, or contains, a cancellation. -/
def isCanceled (f : Failure) : Bool := f.mentions fun | .canceled => true | _ => false

/-- Whether the failure is, or contains, a wrong number of joint values. -/
def isIncorrectDof (f : Failure) : Bool :=
  f.mentions fun | .incorrectDof _ _ => true | _ => false

/-- Whether the failure is, or contains, a joint value out of range. -/
def isOutOfBounds (f : Failure) : Bool :=
  f.mentions fun | .outOfBounds _ _ _ => true | _ => false

/-- Whether the failure is, or contains, missing model information. -/
def isNoModelInformation (f : Failure) : Bool :=
  f.mentions fun | .noModelInformation => true | _ => false

/-- Whether the failure says that a search gave up. -/
def isNotConverged (f : Failure) : Bool := f.notConverged?.isSome

/-- A failure of the arm's shape: a wrong number of values or a value out of range. -/
def isStructural (f : Failure) : Bool := f.isIncorrectDof || f.isOutOfBounds

/-- The class of a failure: the first class, in `FailureKind`'s order, that it belongs to. -/
def kind (f : Failure) : FailureKind :=
  if f.isNotConverged then .notConverged
  else if f.isCanceled then .canceled
  else if f.isIncorrectDof then .incorrectDof
  else if f.isOutOfBounds then .outOfBounds
  else if f.isNoModelInformation then .noModelInformation
  else .other

end Failure

end ArmReach
