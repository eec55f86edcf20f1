import KeenPbr.Netlink

/-! routing/policy_rule.cpp over a kernel that reports what is present and what is absent and, in
reconcile, does what it is asked: no call throws, and both kinds of delete remove the rule they name.
In recovery and clear a delete may fail. A live rule is the RuleSpec of its family. -/
namespace KeenPbr.PolicyRules

def concrete (spec : RuleSpec) (family : Int) : RuleSpec := { spec with family }

def families (spec : RuleSpec) : List Int := if spec.family = 0 then [afInet,afInet6] else [spec.family]

def concretes (spec : RuleSpec) : List RuleSpec := (families spec).map (concrete spec)

def expansion (desired : List RuleSpec) : List RuleSpec := desired.flatMap concretes

def sameLogicalRule (rule other : RuleSpec) : Bool :=
  rule.fwmark == other.fwmark && rule.fwmask == other.fwmask && rule.table == other.table && rule.priority == other.priority

def ruleCoversFamily (rule live : RuleSpec) : Bool := sameLogicalRule rule live && (rule.family == 0 || rule.family == live.family)

/- The kernel with the two ledgers of the manager. -/
structure PolicyRuleManager where
  live : List RuleSpec
  rules : List RuleSpec := []
  owned : List RuleSpec := []
  deriving DecidableEq, Repr

namespace PolicyRuleManager
variable (manager : PolicyRuleManager)

def isTracked (spec : RuleSpec) : Bool := manager.rules.contains spec

def addRuleForFamily (spec : RuleSpec) (family : Int) : RuleAddResult × PolicyRuleManager :=
  if manager.live.contains (concrete spec family) then (.alreadyPresent,manager)
  else (.created,{ manager with live := manager.live ++ [concrete spec family] })

/- The family loop of add; a created rule is owned once the loop is through. -/
def addFamilies (spec : RuleSpec) : List Int → PolicyRuleManager × List RuleSpec → PolicyRuleManager × List RuleSpec
  | [],state => state
  | family :: rest,(manager,newlyOwned) =>
    match manager.addRuleForFamily spec family with
    | (.created,added) => addFamilies spec rest (added,newlyOwned ++ [concrete spec family])
    | (.alreadyPresent,same) => addFamilies spec rest (same,newlyOwned)

def add (spec : RuleSpec) : PolicyRuleManager :=
  if manager.isTracked spec then manager
  else
    let (added,newlyOwned) := addFamilies spec (families spec) (manager,[])
    { added with owned := added.owned ++ newlyOwned, rules := added.rules ++ [spec] }

def others (spec : RuleSpec) : List RuleSpec := manager.rules.erase spec

def surplus (spec owned : RuleSpec) : Bool :=
  sameLogicalRule owned spec && (spec.family == 0 || spec.family == owned.family) && !(manager.others spec).any (ruleCoversFamily · owned)

def deleteOwned (spec : RuleSpec) : PolicyRuleManager :=
  { manager with
    live := manager.live.filter fun rule => !(manager.owned.contains rule && manager.surplus spec rule)
    owned := manager.owned.filter fun rule => !manager.surplus spec rule }

def logicalRuleHasUncoveredLiveFamily (logical : RuleSpec) (tracked : List RuleSpec) : Bool :=
  manager.live.any fun actual =>
    !(logical.family != 0 && logical.family != actual.family) &&
      (concrete logical actual.family == actual && !tracked.any (ruleCoversFamily · (concrete logical actual.family)))

def remove (spec : RuleSpec) : Bool × PolicyRuleManager :=
  if !manager.isTracked spec then (true,manager)
  else
    let deleted := manager.deleteOwned spec
    if deleted.logicalRuleHasUncoveredLiveFamily spec (manager.others spec) then (false,deleted)
    else (true,{ deleted with rules := manager.others spec })

def missingLiveRules (desired : List RuleSpec) : List RuleSpec := (expansion desired).filter fun rule => !manager.live.contains rule

def restore (missing : RuleSpec) : PolicyRuleManager :=
  if !manager.isTracked (concrete missing 0) && !manager.isTracked missing then manager
  else
    let dropped := { manager with owned := manager.owned.filter (· != missing) }
    match dropped.addRuleForFamily missing missing.family with
    | (.alreadyPresent,same) => same
    | (.created,added) => if added.owned.contains missing then added else { added with owned := added.owned ++ [missing] }

def addMissing (desired : List RuleSpec) : PolicyRuleManager :=
  desired.foldl add ((manager.missingLiveRules desired).foldl restore manager)

def removeObsoleteOne (desired : List RuleSpec) (manager : PolicyRuleManager) (rule : RuleSpec) : PolicyRuleManager :=
  if desired.contains rule then manager else (manager.remove rule).2

def removeObsolete (desired : List RuleSpec) : PolicyRuleManager := manager.rules.foldl (removeObsoleteOne desired) manager

def reconcile (desired : List RuleSpec) : PolicyRuleManager := (manager.addMissing desired).removeObsolete desired

inductive Deletion where
  | deleted
  | failed
  | lost
  deriving DecidableEq

/- `inventory` says that the kernel's rules could be read, here and in clear; both tell the tables that rules may still point to. -/
def removeOrphanedGenerated (desired : List RuleSpec) (tables : List UInt32) (ends : RuleSpec → Deletion) (inventory : Bool) :
    PolicyRuleManager × List UInt32 :=
  if !inventory then (manager,tables)
  else
    let live := manager.live.map fun rule => kernelRule rule rule.family
    let orphaned := (findOrphanedGeneratedRules desired live tables).filter fun rule => !manager.rules.any (ruleCoversFamily · rule)
    ({ manager with live := manager.live.filter fun rule => !(orphaned.contains rule && ends rule != .failed) },
      (orphaned.filter (ends · != .deleted)).map (·.table))

def adoptLiveGeneratedDesired (desired : List RuleSpec) (tables : List UInt32) : PolicyRuleManager :=
  { manager with
    owned := (expansion (desired.filter (tables.contains ·.table))).foldl (fun committed rule =>
      if manager.live.contains rule && !committed.contains rule then committed ++ [rule] else committed) manager.owned }

def clear (ends : RuleSpec → Deletion) (inventory : Bool) : PolicyRuleManager × List UInt32 :=
  let live := manager.live.filter fun rule => !(manager.owned.contains rule && ends rule != .failed)
  let owned := manager.owned.filter (ends · != .deleted)
  let rules := manager.rules.filter fun logical =>
    owned.any (ruleCoversFamily logical) || inventory && live.any (ruleCoversFamily logical) || !inventory
  ({ live, rules, owned },(owned ++ rules).map (·.table))

end PolicyRuleManager

end KeenPbr.PolicyRules
