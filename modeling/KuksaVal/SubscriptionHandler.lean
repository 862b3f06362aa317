import KuksaVal.AccessChecker
import KuksaVal.VssDatabase
import Mathlib.Data.Prod.Lex
import Mathlib.Order.Lattice

/-! Subscriptions by path text and attribute, and the notifications waiting for delivery. -/

/-- A subscription is known by a random 128-bit number. -/
abbrev SubscriptionId := ℕ

structure SubscriptionKey where
  path : String
  attr : String
  deriving DecidableEq, Repr

namespace SubscriptionKey

def toPair (k : SubscriptionKey) : String ×ₗ String := toLex (k.path, k.attr)

theorem toPair_injective : Function.Injective toPair := by
  rintro ⟨p, a⟩ ⟨q, b⟩ h
  obtain ⟨rfl, rfl⟩ := Prod.mk.inj (toLex.injective h)
  rfl

instance : LinearOrder SubscriptionKey := LinearOrder.lift' toPair toPair_injective

end SubscriptionKey

/-- An entry of the buffer. -/
structure Notification where
  subscriptionId : SubscriptionId
  channel : KuksaChannel
  vssdatatype : String
  data : Json
  deriving DecidableEq, Repr

structure SubscriptionHandler where
  subscriptions : List (SubscriptionKey × List (SubscriptionId × KuksaChannel)) := []
  buffer : List Notification := []
  deriving DecidableEq, Repr

namespace SubscriptionHandler

variable (h : SubscriptionHandler)

/-- The subscriptions of a key, none when the key is absent. -/
def subscriptionsFor (key : SubscriptionKey) : List (SubscriptionId × KuksaChannel) :=
  (Members.get? key h.subscriptions).getD []

variable (jp : JsonPath) (rx : StdRegex) (db : VssDatabase)

/-- The checks before a subscription is entered, in the order they are made. -/
def checkSubscribe (channel : KuksaChannel) (path : String) : Except Exn VSSPath :=
  let vssPath := VSSPath.fromVSS path
  match db.pathExists jp vssPath with
  | .error e => .error e
  | .ok false => .error (.noPathFoundonTree path)
  | .ok true =>
      match db.pathIsReadable jp vssPath with
      | .error e => .error e
      | .ok false => .error (.noPathFoundonTree
          (path ++ " is not a sensor, actor or attribute leaf. Subscribe not supported"))
      | .ok true =>
          match AccessChecker.checkReadAccess rx channel vssPath with
          | .error e => .error e
          | .ok false => .error (.noPermissionException
              ("no permission to subscribe to path " ++ path))
          | .ok true => .ok vssPath

/-- `subscriptions[subsKey][subId] = channel`. -/
def enter (subsKey : SubscriptionKey) (subId : SubscriptionId) (channel : KuksaChannel) :
    SubscriptionHandler :=
  let subs := Members.assign subId channel (h.subscriptionsFor subsKey)
  { h with subscriptions := Members.assign subsKey subs h.subscriptions }

def subscribe (subId : SubscriptionId) (channel : KuksaChannel) (path attr : String) :
    Except Exn SubscriptionId × SubscriptionHandler :=
  match checkSubscribe jp rx db channel path with
  | .error e => (.error e, h)
  | .ok vssPath => (.ok subId, h.enter ⟨vssPath.getVSSPath, attr⟩ subId channel)

/-- Zero if a subscription was found, -1 otherwise. -/
def unsubscribe (subscribeID : SubscriptionId) : ℤ × SubscriptionHandler :=
  let found := h.subscriptions.any fun sub => (Members.get? subscribeID sub.2).isSome
  (if found then 0 else -1,
    { h with subscriptions := h.subscriptions.map fun sub =>
        (sub.1, Members.erase subscribeID sub.2) })

/-- Remove the first subscription of the channel, if there is one. -/
def eraseFound (channel : KuksaChannel) (subs : List (SubscriptionId × KuksaChannel)) :
    List (SubscriptionId × KuksaChannel) :=
  subs.eraseP fun pair => pair.2.sameAs channel

/-- For each path, one subscription of the channel is removed. -/
def unsubscribeAll (channel : KuksaChannel) : SubscriptionHandler :=
  { h with subscriptions := h.subscriptions.map fun subs => (subs.1, eraseFound channel subs.2) }

/-- One entry in the buffer for every subscription with the key of the published path. -/
def publishForVSSPath (p : Publication) : SubscriptionHandler :=
  { h with buffer := h.buffer ++
      (h.subscriptionsFor ⟨p.path.getVSSPath, p.attr⟩).map fun sub =>
        ⟨sub.1, sub.2, p.vssdatatype, p.data⟩ }

section Table

theorem subscriptionsFor_enter (h : SubscriptionHandler) (key : SubscriptionKey)
    (subId : SubscriptionId) (channel : KuksaChannel) (k : SubscriptionKey) :
    (h.enter key subId channel).subscriptionsFor k =
      if k = key then Members.assign subId channel (h.subscriptionsFor key)
      else h.subscriptionsFor k := by
  unfold enter subscriptionsFor
  rw [Members.get?_assign]
  split_ifs <;> rfl

theorem subscriptionsFor_unsubscribe (h : SubscriptionHandler) (subscribeID : SubscriptionId)
    (k : SubscriptionKey) : (h.unsubscribe subscribeID).2.subscriptionsFor k =
      Members.erase subscribeID (h.subscriptionsFor k) := by
  unfold unsubscribe subscriptionsFor
  rw [Members.get?_map fun _ subs => Members.erase subscribeID subs]
  cases Members.get? k h.subscriptions <;> rfl

theorem subscriptionsFor_unsubscribeAll (h : SubscriptionHandler) (channel : KuksaChannel)
    (k : SubscriptionKey) : (h.unsubscribeAll channel).subscriptionsFor k =
      eraseFound channel (h.subscriptionsFor k) := by
  unfold unsubscribeAll subscriptionsFor
  rw [Members.get?_map fun _ subs => eraseFound channel subs]
  cases Members.get? k h.subscriptions <;> rfl

@[simp] theorem subscriptionsFor_publishForVSSPath (h : SubscriptionHandler) (p : Publication)
    (k : SubscriptionKey) : (h.publishForVSSPath p).subscriptionsFor k = h.subscriptionsFor k :=
  rfl

end Table

end SubscriptionHandler
