import WazoWebhookd.Subscription.Schema

/-! The schema of the administrators' endpoints. -/
namespace WazoWebhookd

/-- The libraries, with the strings of one length as well. -/
structure AdminMallow extends Mallow where
  stringOf : ℕ → Json → Except LoadError Json

/-- A field whose `load_default` is null takes null. -/
def orNull (deserialize : Json → Except LoadError Json) : Json → Except LoadError Json
  | .null => .ok .null
  | raw => deserialize raw

section Schemas
variable (mallow : AdminMallow)

def subscriptionSchema : Schema where
  unknown := .exclude
  fields := [
    { name := "uuid", dataKey := "uuid", deserialize := fun _ => mallow.uuid, dumpOnly := true },
    { name := "name", dataKey := "name", deserialize := fun _ => mallow.string 128,
      required := true },
    { name := "service", dataKey := "service", deserialize := fun _ => mallow.string 128,
      required := true },
    { name := "events", dataKey := "events",
      deserialize := fun _ => mallow.list (mallow.string 128), required := true },
    { name := "events_user_uuid", dataKey := "events_user_uuid",
      deserialize := fun _ => orNull (mallow.stringOf 36) },
    { name := "events_wazo_uuid", dataKey := "events_wazo_uuid",
      deserialize := fun _ => orNull (mallow.stringOf 36) },
    { name := "config", dataKey := "config", deserialize := configField mallow.toMallow,
      required := true },
    { name := "owner_user_uuid", dataKey := "owner_user_uuid",
      deserialize := fun _ => orNull (mallow.stringOf 36) },
    { name := "owner_tenant_uuid", dataKey := "owner_tenant_uuid",
      deserialize := fun _ => mallow.uuid, dumpOnly := true },
    { name := "metadata_", dataKey := "metadata", deserialize := fun _ => mallow.dict }]
  name_nodup := by simp

/-- The fields with a `load_default`. -/
def nullDefaults : List String := ["events_user_uuid", "events_wazo_uuid", "owner_user_uuid"]

def fillDefaults (d : LoadedDict) : LoadedDict :=
  nullDefaults.foldl (fun d key => if key ∈ d then d else d.insert key .null) d

def loadSubscription (json : Json) : Except LoadError LoadedDict :=
  (mallow.load (subscriptionSchema mallow) json).map fillDefaults

end Schemas

/-- Libraries that report no messages. -/
def AdminMallow.plain : AdminMallow where
  toMallow := Mallow.plain
  stringOf length raw := match raw with
    | .str s => if s.length = length then .ok (.str s) else .error (.validationError .null)
    | _ => .error (.validationError .null)

end WazoWebhookd
