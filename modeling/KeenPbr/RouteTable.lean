import KeenPbr.Netlink

/-! routing/route_table.cpp: RouteTable over the NetlinkManager, which supports exact deletes. The
readiness probe and the clock are the caller's and may answer differently at each reading. The
rate of repairs decides log lines only and is left out; so is the dry run. -/
namespace KeenPbr.RouteTables
open Wp

inductive InterfaceAdminState where
  | unknown
  | missing
  | down
  | up
  deriving DecidableEq, Repr

inductive RouteReconcileMode where
  | strict
  | deferredRepair
  deriving DecidableEq, Repr

inductive RouteInstallOutcome where
  | created
  | alreadyManaged
  | replacedManaged
  deriving DecidableEq, Repr

structure PendingReplacement where
  installed : RouteSpec
  previous : List RouteSpec
  deriving DecidableEq, Repr

structure RouteRepairRecord where
  route : RouteSpec
  consecutiveDeferrals : Nat := 0
  retryAfter : Option Nat := none
  deriving DecidableEq, Repr

structure RouteTable where
  backend : Backend
  routes : List RouteSpec := []
  ownedRoutes : List RouteSpec := []
  repairRecords : List RouteRepairRecord := []
  pendingReplacements : List PendingReplacement := []
  readings : Nat := 0

/- What the n-th reading of the readiness probe or of the clock (in seconds) answers, and the
kernel's faults. -/
structure Surroundings where
  interfaceReadinessProbe : Nat → String → InterfaceAdminState
  now : Nat → Nat
  faults : Faults

abbrev Managed := EStateM NetlinkError RouteTable

def routesEqual (a b : RouteSpec) : Bool := routeSpecsEqual a b

def RouteTable.isTracked (table : RouteTable) (spec : RouteSpec) : Bool := table.routes.any (routesEqual · spec)

def routeRequiresInterfaceReadiness (route : RouteSpec) : Option String :=
  if route.blackhole || route.unreachable then none else route.interface.filter (· != "")

def interfaceIsUnavailable (state : InterfaceAdminState) : Bool :=
  state == .unknown || state == .missing || state == .down

def slotText (spec : RouteSpec) : String :=
  "(dst=" ++ spec.destination ++ ", table=" ++ toString spec.table.toNat ++ ", metric=" ++ toString spec.metric.toNat ++ ")"

def routeInterfaceUnavailableMessage (route : RouteSpec) : String :=
  "Route interface is not ready: " ++ route.interface.getD "(none)" ++ " (dst=" ++ route.destination ++ ", table=" ++
    toString route.table.toNat ++ ")"

def findMissingLiveRoutes (desired : List RouteSpec) (live : List DumpedRoute) : List RouteSpec :=
  desired.filter fun route => !live.any (routeMatchesLive route)

def withRepairRecord (spec : RouteSpec) (change : RouteRepairRecord → RouteRepairRecord) : List RouteRepairRecord → List RouteRepairRecord
  | [] => [change { route := spec }]
  | record :: rest => if routesEqual record.route spec then change record :: rest else record :: withRepairRecord spec change rest

def repairDelays : List Nat := [1,2,4,8,16,32,60]

def netlink {α : Type} (call : Netlink α) : Managed α := fun table =>
  match call table.backend with
  | .ok a backend => .ok a { table with backend }
  | .error e backend => .error e { table with backend }

section Operations
variable (around : Surroundings)

def readiness (name : String) : Managed InterfaceAdminState := fun table =>
  .ok (around.interfaceReadinessProbe table.readings name) { table with readings := table.readings + 1 }

def now : Managed Nat := fun table => .ok (around.now table.readings) { table with readings := table.readings + 1 }

def recordRepair (spec : RouteSpec) : Managed Unit :=
  modify fun table => { table with repairRecords := withRepairRecord spec id table.repairRecords }

def repairRetryDue (spec : RouteSpec) : Managed Bool := do
  match (← get).repairRecords.find? (fun record => routesEqual record.route spec) with
  | some { retryAfter := some deadline, .. } => return decide ((← now around) ≥ deadline)
  | _ => pure true

def mayRepair (mode : RouteReconcileMode) (spec : RouteSpec) : Managed Bool :=
  if mode = .deferredRepair then repairRetryDue around spec else pure true

def deferRepair (spec : RouteSpec) : Managed Unit := do
  let time ← now around
  modify fun table => { table with
    repairRecords := withRepairRecord spec (fun record =>
      { record with
        retryAfter := some (time + repairDelays.getD (min record.consecutiveDeferrals (repairDelays.length - 1)) 0)
        consecutiveDeferrals :=
          if record.consecutiveDeferrals < repairDelays.length - 1 then record.consecutiveDeferrals + 1
          else record.consecutiveDeferrals }) table.repairRecords }

def resetRepairBackoff (spec : RouteSpec) : Managed Unit :=
  modify fun table =>
    if table.repairRecords.any (fun record => routesEqual record.route spec) then
      { table with
        repairRecords := withRepairRecord spec (fun record => { record with consecutiveDeferrals := 0, retryAfter := none })
          table.repairRecords }
    else table

def restorePrevious (installed : RouteSpec) : List RouteSpec → Managed Unit
  | [] => netlink (NetlinkManager.deleteRoute around.faults installed)
  | first :: rest => do
    netlink (NetlinkManager.replaceRoute around.faults first)
    rest.forM fun previous => do
      let _ ← netlink (NetlinkManager.addRoute around.faults previous)

def restorePendingReplacement (installed : RouteSpec) : Managed Bool := do
  match (← get).pendingReplacements.find? (fun candidate => routesEqual candidate.installed installed) with
  | none => pure false
  | some pending =>
    tryCatch (do
        restorePrevious around installed pending.previous
        modify fun table => { table with
          pendingReplacements := table.pendingReplacements.eraseP fun candidate => routesEqual candidate.installed installed }
        pure true)
      fun _ => pure false

/- One attempt of add_route_checked; `none` when the occupant was gone again. -/
def attemptInstall (spec : RouteSpec) : Managed (Option RouteInstallOutcome) := do
  match ← netlink (NetlinkManager.addRoute around.faults spec) with
  | .created => pure (some .created)
  | .alreadyPresent =>
    let live ← netlink (NetlinkManager.dumpRoutes around.faults spec.family)
    if live.any (routeMatchesLive spec) && spec.protocol == keenPbrGeneratedRouteProtocol then pure (some .alreadyManaged)
    else
      let collisions := live.filter (routeOccupiesSameSlot spec)
      if collisions.isEmpty then pure none
      else if !(spec.protocol == keenPbrGeneratedRouteProtocol && collisions.all (·.protocol == keenPbrGeneratedRouteProtocol)) then
        throw (.netlink ("Refusing to replace a foreign route occupying the keen-pbr slot " ++ slotText spec))
      else
        modify fun table => { table with
          pendingReplacements := table.pendingReplacements ++ [⟨spec,collisions.map routeSpecFromLive⟩] }
        tryCatch (do
            netlink (NetlinkManager.replaceRoute around.faults spec)
            let replaced ← netlink (NetlinkManager.dumpRoutes around.faults spec.family)
            if replaced.any (routeMatchesLive spec) then pure (some .replacedManaged)
            else throw (.netlink ("Managed route replacement did not reach the requested postcondition " ++ slotText spec)))
          fun e => do
            let _ ← restorePendingReplacement around spec
            throw e

def interfaceLost (spec : RouteSpec) : Managed Bool := do
  match routeRequiresInterfaceReadiness spec with
  | none => pure false
  | some name => return interfaceIsUnavailable (← readiness around name)

def addRouteChecked (spec : RouteSpec) : Managed RouteInstallOutcome := do
  if ← interfaceLost around spec then throw (.routeInterfaceUnavailable (routeInterfaceUnavailableMessage spec))
  else
    tryCatch (do
        match ← attemptInstall around spec with
        | some outcome => pure outcome
        | none =>
          match ← attemptInstall around spec with
          | some outcome => pure outcome
          | none => throw (.netlink ("Route disappeared while resolving an EEXIST race " ++ slotText spec)))
      fun e => do
        match e with
        | .routeInterfaceUnavailable _ => throw e
        | _ =>
          if ← interfaceLost around spec then throw (.routeInterfaceUnavailable (routeInterfaceUnavailableMessage spec))
          else throw e

def forgetOwnedRoute (spec : RouteSpec) : Managed Unit :=
  modify fun table => { table with ownedRoutes := table.ownedRoutes.filter fun route => !routesEqual route spec }

def RouteTable.claimed (table : RouteTable) (spec : RouteSpec) (outcome : RouteInstallOutcome) : RouteTable :=
  { table with
    routes := table.routes ++ [spec]
    ownedRoutes := if outcome = .alreadyManaged then table.ownedRoutes else table.ownedRoutes ++ [spec] }

def add (spec : RouteSpec) : Managed Unit := do
  if (← get).isTracked spec then pure ()
  else
    let outcome ← tryCatch (addRouteChecked around spec) fun e => do
      if (← get).pendingReplacements.any (fun pending => routesEqual pending.installed spec) then
        modify fun table => table.claimed spec .replacedManaged
        throw e
      else throw e
    modify fun table => table.claimed spec outcome

/- The delete of an owned route; false when the kernel identity changed or the request failed. -/
def withdraw (spec : RouteSpec) : Managed Bool := do
  if (← get).pendingReplacements.any (fun pending => routesEqual pending.installed spec) then restorePendingReplacement around spec
  else
    tryCatch (do
        match ← netlink (NetlinkManager.deleteRouteIfExact around.faults spec) with
        | .preconditionMismatch => pure false
        | _ => pure true)
      fun e => match e with
        | .unknown => throw e
        | _ => pure false

def release (spec : RouteSpec) : Managed Bool := do
  if (← get).ownedRoutes.any (routesEqual · spec) then withdraw around spec else pure true

def remove (spec : RouteSpec) : Managed Bool := do
  if !(← get).isTracked spec then pure true
  else
    if ← release around spec then
      modify fun table => { table with
        ownedRoutes := table.ownedRoutes.eraseP (routesEqual · spec)
        repairRecords := table.repairRecords.filter fun record => !routesEqual record.route spec
        routes := table.routes.eraseP (routesEqual · spec) }
      pure true
    else pure false

def observe (live : List DumpedRoute) (route : RouteSpec) : Managed Unit := do
  if (← get).isTracked route && live.any (routeMatchesLive route) then resetRepairBackoff route else pure ()

def repairClaim (route : RouteSpec) (outcome : RouteInstallOutcome) : Managed Unit := do
  if outcome = .alreadyManaged then pure ()
  else
    modify fun table =>
      if table.ownedRoutes.any (routesEqual · route) then table else { table with ownedRoutes := table.ownedRoutes ++ [route] }
    recordRepair route

def repairMissing (mode : RouteReconcileMode) (route : RouteSpec) : Managed Bool := do
  if !(← get).isTracked route then pure true
  else
    forgetOwnedRoute route
    if !(← mayRepair around mode route) then pure false
    else
      let result ← tryCatch (do return some (← addRouteChecked around route)) fun e =>
        match e,mode with
        | .routeInterfaceUnavailable _,.deferredRepair => do
          deferRepair around route
          pure none
        | _,_ => throw e
      match result with
      | none => pure false
      | some outcome =>
        repairClaim route outcome
        if mode = .deferredRepair then deferRepair around route else resetRepairBackoff route
        pure true

def repairAll (mode : RouteReconcileMode) : List RouteSpec → Managed Bool
  | [] => pure true
  | route :: rest => do
    let repaired ← repairMissing around mode route
    let others ← repairAll mode rest
    return repaired && others

def installNew (mode : RouteReconcileMode) (route : RouteSpec) : Managed Unit := do
  if (← get).isTracked route then pure ()
  else
    if !(← mayRepair around mode route)
      then throw (.routeInterfaceUnavailable "route installation is waiting for its interface retry deadline")
    else
      tryCatch (do
          add around route
          resetRepairBackoff route)
        fun e => match e,mode with
          | .routeInterfaceUnavailable _,.deferredRepair => do
            deferRepair around route
            throw e
          | _,_ => throw e

def addMissing (desired : List RouteSpec) (mode : RouteReconcileMode) : Managed Bool := do
  modify fun table => { table with
    repairRecords := table.repairRecords.filter fun record => desired.any (routesEqual record.route) }
  let live ← netlink (NetlinkManager.dumpRoutes around.faults 0)
  desired.forM (observe live)
  let desiredLiveComplete ← repairAll around mode (findMissingLiveRoutes desired live)
  desired.forM (installNew around mode)
  pure desiredLiveComplete

def finalizePendingReplacements : Managed Unit := modify fun table => { table with pendingReplacements := [] }

def adoptOrphan (desired : List RouteSpec) (actual : DumpedRoute) : Managed Unit :=
  if !isGeneratedRouteCandidate actual || desired.any (routeMatchesLive · actual) then pure ()
  else
    modify fun table =>
      let orphan := routeSpecFromLive actual
      { table with
        routes := if table.isTracked orphan then table.routes else table.routes ++ [orphan]
        ownedRoutes := if table.ownedRoutes.any (routesEqual · orphan) then table.ownedRoutes else table.ownedRoutes ++ [orphan] }

def adoptGeneratedOrphans (desired : List RouteSpec) : Managed Unit := do
  let live ← netlink (NetlinkManager.dumpRoutes around.faults 0)
  live.forM (adoptOrphan desired)

def keepCurrent (desired : List RouteSpec) (protectedTables : List UInt32) (route : RouteSpec) : Managed Bool :=
  if desired.any (routesEqual route) then pure false
  else if protectedTables.contains route.table then pure true
  else (! ·) <$> remove around route

def removeCurrent (desired : List RouteSpec) (protectedTables : List UInt32) : List RouteSpec → Managed (List UInt32)
  | [] => pure []
  | route :: rest => do
    let kept ← keepCurrent around desired protectedTables route
    let others ← removeCurrent desired protectedTables rest
    return if kept then others.insert route.table else others

def removeObsolete (desired : List RouteSpec) (protectedTables : List UInt32) : Managed (List UInt32) := do
  adoptGeneratedOrphans around desired
  removeCurrent around desired protectedTables (← get).routes

def committedOwned (desired : List RouteSpec) (live : List DumpedRoute) (owned : List RouteSpec) : List RouteSpec :=
  desired.foldl (fun committed expected =>
    if expected.protocol != keenPbrGeneratedRouteProtocol then committed
    else if live.any (routeMatchesLive expected) && !committed.any (routesEqual · expected) then committed ++ [expected]
    else committed) owned

def adoptLiveGeneratedDesired (desired : List RouteSpec) : Managed Unit :=
  tryCatch (do
      let live ← netlink (NetlinkManager.dumpRoutes around.faults 0)
      modify fun table => { table with ownedRoutes := committedOwned desired live table.ownedRoutes })
    fun _ => pure ()

def reconcile (desired : List RouteSpec) (mode : RouteReconcileMode) : Managed Unit := do
  let _ ← addMissing around desired mode
  finalizePendingReplacements
  let _ ← removeObsolete around desired []
  adoptLiveGeneratedDesired around desired

end Operations

end KeenPbr.RouteTables
