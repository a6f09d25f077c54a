import Knitout.Lowering.Command
import Knitout.Lowering.Feeder

/-!
# Lowering loop operations

What a request becomes depends on whether its needle holds loops and whether it names carriers: work
on an empty needle becomes a tuck, work without carriers a drop or a transfer, and some requests
become a comment.
-/

namespace Knitout

/-- What a request becomes. -/
inductive Action where
  | miss
  | tuck
  | amiss
  | knit
  | drop
  | emptyDrop
  | split (target : Needle)
  | transfer (target : Needle)
  deriving DecidableEq

namespace LoopWork

/-- What the work becomes on a needle with or without loops, with or without carriers. -/
def action (work : LoopWork) (hasLoops hasCarriers : Bool) : Action :=
  match work with
  | .miss => .miss
  | .tuck => if hasCarriers then .tuck else .amiss
  | .knit =>
    if hasLoops then (if hasCarriers then .knit else .drop)
    else (if hasCarriers then .tuck else .emptyDrop)
  | .split target =>
    if hasCarriers then (if hasLoops then .split target else .tuck) else .transfer target

/-- Whether the work becomes a tuck without being asked for one. -/
def decays (work : LoopWork) (hasLoops hasCarriers : Bool) : Bool :=
  work != .tuck && work.action hasLoops hasCarriers == .tuck

end LoopWork

/-- A request whose carriers are known to exist, and what it becomes. -/
structure Plan where
  request : Request
  action : Action
  carriers : List Carrier
  deriving DecidableEq

/-- The size of every stitch. -/
def stitchSize : Length := .ofNat 30

namespace Context

/-- Whether a needle holds loops. -/
def hasLoops (c : Context) (needle : Needle) : Bool :=
  c.loops.contains needle

/-- Find out what a request becomes. -/
def plan (c : Context) (request : Request) : Except LoweringError Plan :=
  let hasCarriers := !request.carriers.isEmpty
  match request.synonym, hasCarriers with
  | some synonym, true => .error (.carriersNotAllowed synonym)
  | _, _ =>
    if request.work = .miss && !hasCarriers then .error .missWithoutCarriers
    else
      match c.carriers.resolve request.carriers with
      | .error e => .error e
      | .ok carriers =>
        .ok ⟨request, request.work.action (c.hasLoops request.needle) hasCarriers, carriers⟩

/-- Loops only move between needles of opposite beds in one column. -/
def checkAligned (c : Context) (needle target : Needle) : Except LoweringError Unit :=
  if needle.bed = target.bed then .error (.transferSameBed needle target)
  else if needle.column c.racking ≠ target.column c.racking then
    .error (.transferMisaligned needle target c.racking)
  else .ok ()

/-- A tuck takes one carrier at most, and moved loops need an aligned target. -/
def checkPlan (c : Context) (p : Plan) : Except LoweringError Unit :=
  match p.action with
  | .tuck =>
    if 1 < p.carriers.length then .error (.multiCarrierTuck p.carriers.length) else .ok ()
  | .split target | .transfer target => c.checkAligned p.request.needle target
  | _ => .ok ()

/-- The location that the carriage comes from: past the needle before. -/
def approach (request : Request) : Location :=
  let needle := request.needle
  ⟨{ needle with index := needle.index - request.direction.step }, request.direction⟩

/-- A carrier's yarn and how much of it reaches from its last loop to a needle. -/
def strand (c : Context) (needle : Needle) (carrier : Carrier) : Strand :=
  let length := match c.stages.get? carrier.yarn with
    | some (.active _ attached) =>
      (needle.column c.racking - attached.needle.column c.racking).natAbs
    | _ => 0
  ⟨carrier.yarn, .ofNat length⟩

/-- The output lines of an action. -/
def contents (c : Context) (p : Plan) : List Content :=
  let needle := p.request.needle
  let direction := p.request.direction
  let strands := p.carriers.map (c.strand needle)
  match p.action with
  | .miss => p.carriers.map fun carrier => .operation (.miss direction needle carrier.yarn)
  | .tuck => [.operation (.tuck direction needle stitchSize strands)]
  | .amiss => [.remark .amissIgnored]
  | .knit => [.operation (.knit direction needle stitchSize strands)]
  | .drop => [.operation (.drop needle)]
  | .emptyDrop => [.remark .emptyDropIgnored]
  | .split target => [.operation (.split direction needle target stitchSize strands)]
  | .transfer target => [.operation (.transfer needle target)]

/-- The loops after an action. -/
def loopsAfter (c : Context) (p : Plan) : Loops :=
  let needle := p.request.needle
  match p.action with
  | .miss | .amiss | .emptyDrop => c.loops
  | .tuck => c.loops.insert needle (c.loops.count needle + 1)
  | .knit => c.loops.insert needle p.carriers.length
  | .drop => c.loops.erase needle
  | .split target => (c.loops.move needle target).insert needle p.carriers.length
  | .transfer target => c.loops.move needle target

/-- Let the locations of all carriers in action follow the loops that an action moves. -/
def retarget (c : Context) (p : Plan) : Context :=
  match p.action with
  | .split target | .transfer target =>
    let moved := Location.follow p.request.needle target
    c.relocate moved moved
  | _ => c

/-- A carrier has passed the needle; unless it only missed, it is attached there. -/
def usedCarrier (p : Plan) (c : Context) (carrier : Carrier) : Context :=
  let here : Location := ⟨p.request.needle, p.request.direction⟩
  match p.action, c.stages.get? carrier.yarn with
  | .miss, some (.active _ attached) => c.setStage carrier (.active here attached)
  | _, _ => c.setStage carrier (.active here here)

/-- Do what was planned, with all feeders in place. -/
def perform (c : Context) (p : Plan) : Context :=
  let emitted := (c.contents p).foldl emit c
  let moved := { emitted with loops := c.loopsAfter p }.retarget p
  p.carriers.foldl (usedCarrier p) moved

/-- Lower a loop operation. -/
def lowerRequest (c : Context) (request : Request) : Except LoweringError Context := do
  let p ← c.plan request
  c.checkPlan p
  let c ← c.positionAll (approach request) p.carriers
  .ok (c.perform p)

end Context

end Knitout
