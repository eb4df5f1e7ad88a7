import NodeRank.Config.Args
import NodeRank.Telemetry.Usage
import NodeRank.Proofs.Json.Record
import NodeRank.Proofs.Json.Text
import NodeRank.Proofs.Quantity.OwnText
import NodeRank.Proofs.Timestamp
import NodeRank.Proofs.Uuid
import Mathlib.Tactic.TFAE

/-! # Models read back

Nodes, pods, usage documents, resources and plugin arguments are read from what is written of them,
whatever was left out, repeated or spelled otherwise in the text that they came from. What can be
read of them at all is what consists of quantities and times that can be read.
-/
namespace NodeRank
open Json

namespace Json
variable {α : Type} {write : α → Json}

theorem plain_ofMap (h : ∀ v, Plain (write v)) (m : NameMap α) : Plain (ofMap write m) := by
  refine .record fun e he => ?_
  obtain ⟨e,_,rfl⟩ := List.mem_map.mp he
  exact h e.2

theorem plain_ofOption (h : ∀ v, Plain (write v)) (o : Option α) : Plain (ofOption write o) := by
  cases o with
  | none => exact .null
  | some v => exact h v

theorem plain_list (h : ∀ v, Plain (write v)) (l : List α) : Plain (.array (l.map write)) := by
  refine .array fun w hw => ?_
  obtain ⟨v,_,rfl⟩ := List.mem_map.mp hw
  exact h v

end Json

/-! ### Texts -/

namespace Quantity

theorem lawful : Lawful Made ofJson? toJson :=
  lawful_ofText (fun _ h => parse?_eq_some_iff.mpr (made_iff_parse_text.mp h))
    fun _ _ => made_of_parse?

theorem plain_toJson (q : Quantity) : Plain q.toJson := .text q.text

end Quantity

theorem Uuid.lawful : Lawful (fun _ => True) Uuid.ofJson? Uuid.toJson :=
  lawful_ofText (fun u _ => u.parse?_render) fun _ _ _ => trivial

namespace Timestamp

theorem lawful : Lawful Kept ofJson? toJson :=
  lawful_ofText (fun _ => parse?_render) fun _ _ => kept_of_parse?

theorem plain_toJson (t : Timestamp) : Plain t.toJson := .text t.render

end Timestamp

/-! ### Records -/

/-- Whether all quantities of a list are such as are read from texts. -/
def ResourceList.Made (list : ResourceList) : Prop := ∀ e ∈ list.toList, e.2.Made

theorem ResourceList.made_empty : Made ∅ := nofun

namespace Resources

theorem lawful_list : Lawful ResourceList.Made listOfJson? listToJson := Quantity.lawful.map

theorem plain_listToJson (list : ResourceList) : Plain (listToJson list) :=
  plain_ofMap Quantity.plain_toJson list

theorem ofJson?_toJson (r : Resources) : ofJson? r.toJson = some r := by
  have hscalars : map? amount? (ofMap (fun x : Amount => .integer x.toInt) r.scalars) =
      some r.scalars := map?_ofMap fun _ x _ => amount?_toInt x
  simp only [ofJson?, toJson, Option.bind_eq_bind]
  rw [Fields.ofJson?_record (by rfl) (by decide), Option.bind_some,
    Fields.required_eq_some (by rfl) (amount?_toInt r.milliCpu), Option.bind_some,
    Fields.required_eq_some (by rfl) (amount?_toInt r.memory), Option.bind_some,
    Fields.required_eq_some (by rfl) (amount?_toInt r.ephemeralStorage), Option.bind_some,
    Fields.required_eq_some (by rfl) (amount?_toInt r.pods), Option.bind_some,
    Fields.required_eq_some (by rfl) hscalars, Option.bind_some]

theorem plain_toJson (r : Resources) : Plain r.toJson := by
  refine .record ?_
  simp only [List.forall_mem_cons]
  exact ⟨.integer _,.integer _,.integer _,.integer _,
    plain_ofMap (fun x => .integer x.toInt) r.scalars,nofun⟩

end Resources

namespace Node

/-- Whether all quantities of a node are such as are read from texts. -/
def Made (n : Node) : Prop := ∀ e ∈ n.capacity.toList ++ n.reserved.toList, e.2.Made

theorem made_iff {n : Node} : n.Made ↔ n.capacity.Made ∧ n.reserved.Made := List.forall_mem_append

theorem lawful : Lawful Made ofJson? toJson where
  read_write n hn := by
    obtain ⟨hcapacity,hreserved⟩ := made_iff.mp hn
    simp only [ofJson?, toJson, Option.bind_eq_bind]
    rw [Fields.ofJson?_record (by rfl) (by decide), Option.bind_some,
      lawful_string.required n.name trivial (by rfl), Option.bind_some,
      Resources.lawful_list.required n.capacity hcapacity (by rfl), Option.bind_some,
      Resources.lawful_list.orElse n.reserved hreserved (by rfl), Option.bind_some]
  good_of_read j n h := by
    obtain ⟨f,_,h⟩ := Option.bind_eq_some_iff.mp h
    obtain ⟨name,_,h⟩ := Option.bind_eq_some_iff.mp h
    obtain ⟨capacity,hcapacity,h⟩ := Option.bind_eq_some_iff.mp h
    obtain ⟨reserved,hreserved,h⟩ := Option.bind_eq_some_iff.mp h
    obtain rfl := Option.some.inj h
    exact made_iff.mpr ⟨Resources.lawful_list.good_of_required hcapacity,
      Resources.lawful_list.good_of_orElse ResourceList.made_empty hreserved⟩

theorem plain_toJson (n : Node) : Plain n.toJson := by
  refine .record ?_
  simp only [List.forall_mem_cons]
  exact ⟨.text n.name,Resources.plain_listToJson n.capacity,Resources.plain_listToJson n.reserved,
    nofun⟩

end Node

namespace ResourceNeeds

def Made (r : ResourceNeeds) : Prop := r.requests.Made ∧ r.limits.Made

theorem made_empty : empty.Made := ⟨ResourceList.made_empty,ResourceList.made_empty⟩

theorem lawful : Lawful Made ofJson? toJson where
  read_write r hr := by
    simp only [ofJson?, toJson, Option.bind_eq_bind]
    rw [Fields.ofJson?_record (by rfl) (by decide), Option.bind_some,
      Resources.lawful_list.orElse r.requests hr.1 (by rfl), Option.bind_some,
      Resources.lawful_list.orElse r.limits hr.2 (by rfl), Option.bind_some]
  good_of_read j r h := by
    obtain ⟨f,_,h⟩ := Option.bind_eq_some_iff.mp h
    obtain ⟨requests,hrequests,h⟩ := Option.bind_eq_some_iff.mp h
    obtain ⟨limits,hlimits,h⟩ := Option.bind_eq_some_iff.mp h
    obtain rfl := Option.some.inj h
    exact ⟨Resources.lawful_list.good_of_orElse ResourceList.made_empty hrequests,
      Resources.lawful_list.good_of_orElse ResourceList.made_empty hlimits⟩

theorem plain_toJson (r : ResourceNeeds) : Plain r.toJson := by
  refine .record ?_
  simp only [List.forall_mem_cons]
  exact ⟨Resources.plain_listToJson r.requests,Resources.plain_listToJson r.limits,nofun⟩

end ResourceNeeds

namespace Container

theorem lawful : Lawful (fun c => c.resources.Made) ofJson? toJson where
  read_write c hc := by
    simp only [ofJson?, toJson, Option.bind_eq_bind]
    rw [Fields.ofJson?_record (by rfl) (by decide), Option.bind_some,
      lawful_string.required c.name trivial (by rfl), Option.bind_some,
      lawful_string.required c.image trivial (by rfl), Option.bind_some,
      ResourceNeeds.lawful.orElse c.resources hc (by rfl), Option.bind_some]
  good_of_read j c h := by
    obtain ⟨f,_,h⟩ := Option.bind_eq_some_iff.mp h
    obtain ⟨name,_,h⟩ := Option.bind_eq_some_iff.mp h
    obtain ⟨image,_,h⟩ := Option.bind_eq_some_iff.mp h
    obtain ⟨resources,hresources,h⟩ := Option.bind_eq_some_iff.mp h
    obtain rfl := Option.some.inj h
    exact ResourceNeeds.lawful.good_of_orElse ResourceNeeds.made_empty hresources

theorem plain_toJson (c : Container) : Plain c.toJson := by
  refine .record ?_
  simp only [List.forall_mem_cons]
  exact ⟨.text c.name,.text c.image,c.resources.plain_toJson,nofun⟩

end Container

namespace Pod

/-- Whether a pod consists of such quantities and of such a time as are read from texts. -/
structure Made (p : Pod) : Prop where
  createdAt : p.createdAt.Kept
  containers : ∀ c ∈ p.containers, c.resources.Made
  overhead : p.overhead.Made

theorem lawful_metadata : Lawful (fun m => m.2.2.Kept) metadataOfJson? fun (id, name, createdAt) =>
    .record [("id", id.toJson), ("name", .text name), ("creationTimestamp", createdAt.toJson)] where
  read_write m hm := by
    simp only [metadataOfJson?, Option.bind_eq_bind]
    rw [Fields.ofJson?_record (by rfl) (by decide), Option.bind_some,
      Uuid.lawful.required m.1 trivial (by rfl), Option.bind_some,
      lawful_string.required m.2.1 trivial (by rfl), Option.bind_some,
      Timestamp.lawful.required m.2.2 hm (by rfl), Option.bind_some]
  good_of_read j m h := by
    obtain ⟨f,_,h⟩ := Option.bind_eq_some_iff.mp h
    obtain ⟨id,_,h⟩ := Option.bind_eq_some_iff.mp h
    obtain ⟨name,_,h⟩ := Option.bind_eq_some_iff.mp h
    obtain ⟨createdAt,hcreatedAt,h⟩ := Option.bind_eq_some_iff.mp h
    obtain rfl := Option.some.inj h
    exact Timestamp.lawful.good_of_required hcreatedAt

theorem lawful_spec : Lawful (fun s => (∀ c ∈ s.2.1, c.resources.Made) ∧ s.2.2.Made) specOfJson?
    fun (nodeName, containers, overhead) => .record [
      ("nodeName", .text nodeName), ("containers", .array (containers.map Container.toJson)),
      ("overhead", Resources.listToJson overhead)] where
  read_write s hs := by
    simp only [specOfJson?, Option.bind_eq_bind]
    rw [Fields.ofJson?_record (by rfl) (by decide), Option.bind_some,
      lawful_string.orElse s.1 trivial (by rfl), Option.bind_some,
      Container.lawful.list.required s.2.1 hs.1 (by rfl), Option.bind_some,
      Resources.lawful_list.orElse s.2.2 hs.2 (by rfl), Option.bind_some]
  good_of_read j s h := by
    obtain ⟨f,_,h⟩ := Option.bind_eq_some_iff.mp h
    obtain ⟨nodeName,_,h⟩ := Option.bind_eq_some_iff.mp h
    obtain ⟨containers,hcontainers,h⟩ := Option.bind_eq_some_iff.mp h
    obtain ⟨overhead,hoverhead,h⟩ := Option.bind_eq_some_iff.mp h
    obtain rfl := Option.some.inj h
    exact ⟨Container.lawful.list.good_of_required hcontainers,
      Resources.lawful_list.good_of_orElse ResourceList.made_empty hoverhead⟩

theorem lawful : Lawful Made ofJson? toJson where
  read_write p hp := by
    simp only [ofJson?, toJson, Option.bind_eq_bind]
    rw [Fields.ofJson?_record (by rfl) (by decide), Option.bind_some,
      lawful_metadata.required (p.id, p.name, p.createdAt) hp.createdAt (by rfl), Option.bind_some,
      lawful_spec.required (p.nodeName, p.containers, p.overhead) ⟨hp.containers,hp.overhead⟩
        (by rfl), Option.bind_some]
  good_of_read j p h := by
    obtain ⟨f,_,h⟩ := Option.bind_eq_some_iff.mp h
    obtain ⟨metadata,hmetadata,h⟩ := Option.bind_eq_some_iff.mp h
    obtain ⟨spec,hspec,h⟩ := Option.bind_eq_some_iff.mp h
    obtain rfl := Option.some.inj h
    obtain ⟨hcontainers,hoverhead⟩ := lawful_spec.good_of_required hspec
    exact ⟨lawful_metadata.good_of_required hmetadata,hcontainers,hoverhead⟩

theorem plain_toJson (p : Pod) : Plain p.toJson := by
  refine .record ?_
  simp only [List.forall_mem_cons]
  refine ⟨.record ?_,.record ?_,nofun⟩
  · simp only [List.forall_mem_cons]
    exact ⟨.text p.id.render,.text p.name,p.createdAt.plain_toJson,nofun⟩
  · simp only [List.forall_mem_cons]
    exact ⟨.text p.nodeName,plain_list Container.plain_toJson p.containers,
      Resources.plain_listToJson p.overhead,nofun⟩

end Pod

namespace NodeMetrics

/-- Whether a document consists of such quantities and of such times as are read from texts. -/
structure Made (m : NodeMetrics) : Prop where
  createdAt : ∀ t ∈ m.createdAt, t.Kept
  timestamp : ∀ t ∈ m.timestamp, t.Kept
  usage : m.usage.Made

theorem lawful_metadata : Lawful (fun m => ∀ t ∈ m.2, t.Kept) metadataOfJson?
    fun (name, createdAt) => .record [
      ("name", .text name),
      ("creationTimestamp", .ofOption Timestamp.toJson createdAt)] where
  read_write m hm := by
    have hnullable := Fields.lawful_nullable Timestamp.lawful nofun
    simp only [metadataOfJson?, Option.bind_eq_bind]
    rw [Fields.ofJson?_record (by rfl) (by decide), Option.bind_some,
      lawful_string.required m.1 trivial (by rfl), Option.bind_some,
      hnullable.orElse m.2 hm (by rfl), Option.bind_some]
  good_of_read j m h := by
    obtain ⟨f,_,h⟩ := Option.bind_eq_some_iff.mp h
    obtain ⟨name,_,h⟩ := Option.bind_eq_some_iff.mp h
    obtain ⟨createdAt,hcreatedAt,h⟩ := Option.bind_eq_some_iff.mp h
    obtain rfl := Option.some.inj h
    have hnullable := Fields.lawful_nullable Timestamp.lawful nofun
    have hnone : ∀ t ∈ (none : Option Timestamp), t.Kept := nofun
    exact hnullable.good_of_orElse hnone hcreatedAt

theorem lawful : Lawful Made ofJson? toJson where
  read_write m hm := by
    simp only [ofJson?, toJson, Option.bind_eq_bind]
    rw [Fields.ofJson?_record (by rfl) (by decide), Option.bind_some,
      lawful_metadata.required (m.name, m.createdAt) hm.createdAt (by rfl), Option.bind_some,
      Timestamp.lawful.optional nofun m.timestamp hm.timestamp (by rfl), Option.bind_some,
      lawful_string.optional nofun m.window (fun _ _ => trivial) (by rfl), Option.bind_some,
      Resources.lawful_list.required m.usage hm.usage (by rfl), Option.bind_some]
  good_of_read j m h := by
    obtain ⟨f,_,h⟩ := Option.bind_eq_some_iff.mp h
    obtain ⟨metadata,hmetadata,h⟩ := Option.bind_eq_some_iff.mp h
    obtain ⟨timestamp,htimestamp,h⟩ := Option.bind_eq_some_iff.mp h
    obtain ⟨window,_,h⟩ := Option.bind_eq_some_iff.mp h
    obtain ⟨usage,husage,h⟩ := Option.bind_eq_some_iff.mp h
    obtain rfl := Option.some.inj h
    exact ⟨lawful_metadata.good_of_required hmetadata,
      Timestamp.lawful.good_of_optional nofun htimestamp,
      Resources.lawful_list.good_of_required husage⟩

theorem plain_toJson (m : NodeMetrics) : Plain m.toJson := by
  refine .record ?_
  simp only [List.forall_mem_cons]
  refine ⟨.record ?_,plain_ofOption Timestamp.plain_toJson m.timestamp,
    plain_ofOption Plain.text m.window,Resources.plain_listToJson m.usage,nofun⟩
  simp only [List.forall_mem_cons]
  exact ⟨.text m.name,plain_ofOption Timestamp.plain_toJson m.createdAt,nofun⟩

end NodeMetrics

theorem WeightSpec.ofJson?_toJson (s : WeightSpec) : WeightSpec.ofJson? s.toJson = some s := by
  have hname : string? (.text s.name) = some s.name := rfl
  simp only [WeightSpec.ofJson?, WeightSpec.toJson, Option.bind_eq_bind]
  rw [Fields.ofJson?_record (by rfl) (by decide), Option.bind_some,
    Fields.required_eq_some (by rfl) hname, Option.bind_some,
    Fields.required_eq_some (by rfl) (amount?_toInt s.weight), Option.bind_some]

theorem WeightSpec.plain_toJson (s : WeightSpec) : Plain s.toJson := by
  refine .record ?_
  simp only [List.forall_mem_cons]
  exact ⟨.text s.name,.integer s.weight.toInt,nofun⟩

theorem Policy.plain_toJson (p : Policy) : Plain p.toJson := .text p.name

namespace Args

theorem ofJson?_toJson (a : Args) : ofJson? a.toJson = some a := by
  have hmode : Fields.nullable Policy.ofJson? (ofOption Policy.toJson a.mode) = some a.mode := by
    cases a.mode with
    | none => rfl
    | some p => exact congrArg (Option.map some) p.ofName?_name
  have hresources : list? WeightSpec.ofJson? (.array (a.resources.map WeightSpec.toJson)) =
      some a.resources := mapM_map fun s _ => s.ofJson?_toJson
  have hmetrics : bool? (.bool a.metricsEnabled) = some a.metricsEnabled := rfl
  simp only [ofJson?, toJson, Option.bind_eq_bind]
  rw [Fields.ofJson?_record (by rfl) (by decide), Option.bind_some,
    Fields.orElse_eq_some (by rfl) hmode, Option.bind_some,
    Fields.orElse_eq_some (by rfl) hresources, Option.bind_some,
    Fields.orElse_eq_some (by rfl) hmetrics, Option.bind_some]

theorem plain_toJson (a : Args) : Plain a.toJson := by
  refine .record ?_
  simp only [List.forall_mem_cons]
  exact ⟨plain_ofOption Policy.plain_toJson a.mode,plain_list WeightSpec.plain_toJson a.resources,
    .bool a.metricsEnabled,nofun⟩

end Args

/-! ### Texts of models -/

theorem Json.Plain.parse?_bind {α : Type} {read : Json → Option α} {j : Json} {v : α} (h : Plain j)
    (hread : read j = some v) : (parse? j.render).bind read = some v := by
  rw [h.parse?_render]
  exact hread

/-- The good values are those that can be read, and those that the text written of them gives. -/
theorem Json.Lawful.tfae {α : Type} {good : α → Prop} {read : Json → Option α} {write : α → Json}
    (h : Lawful good read write) {v : α} (hplain : Plain (write v)) : List.TFAE [
      good v,
      ∃ j, read j = some v,
      (parse? (write v).render).bind read = some v] := by
  tfae_have 1 → 3 := fun hv => hplain.parse?_bind (h.read_write v hv)
  tfae_have 3 → 2 := by
    intro hread
    obtain ⟨j,_,hj⟩ := Option.bind_eq_some_iff.mp hread
    exact ⟨j,hj⟩
  tfae_have 2 → 1 := fun ⟨j,hj⟩ => h.good_of_read j v hj
  tfae_finish

/-- The nodes, pods and usage documents that consist of what is read from texts are those that can
be read at all, and they are read again from the text that is written of them. Resources and
arguments are, however they came about. -/
theorem models_read_back :
    (∀ n : Node, List.TFAE [
      n.Made,
      ∃ j, Node.ofJson? j = some n,
      (parse? n.toJson.render).bind Node.ofJson? = some n]) ∧
    (∀ p : Pod, List.TFAE [
      p.Made,
      ∃ j, Pod.ofJson? j = some p,
      (parse? p.toJson.render).bind Pod.ofJson? = some p]) ∧
    (∀ m : NodeMetrics, List.TFAE [
      m.Made,
      ∃ j, NodeMetrics.ofJson? j = some m,
      (parse? m.toJson.render).bind NodeMetrics.ofJson? = some m]) ∧
    (∀ r : Resources, (parse? r.toJson.render).bind Resources.ofJson? = some r) ∧
    ∀ a : Args, (parse? a.toJson.render).bind Args.ofJson? = some a := by
  refine ⟨fun n => ?_,fun p => ?_,fun m => ?_,fun r => ?_,fun a => ?_⟩
  · exact Node.lawful.tfae n.plain_toJson
  · exact Pod.lawful.tfae p.plain_toJson
  · exact NodeMetrics.lawful.tfae m.plain_toJson
  · exact r.plain_toJson.parse?_bind r.ofJson?_toJson
  · exact a.plain_toJson.parse?_bind a.ofJson?_toJson

/-- A node as the list of its fields, of which the last is left out. -/
def bareNode : Json := .array [.text "n1", .record [("memory", .text "16Gi"), ("cpu", .text "4")]]

def Node.fourProcessors : Node :=
  ⟨"n1",.ofList [("cpu", ⟨"4",4 * 10 ^ 9⟩), ("memory", ⟨"16Gi",16 * 2 ^ 30 * 10 ^ 9⟩)],∅⟩

/-- A pod in which most of what may be left out is left out, its time and its amounts spelled
freely. -/
def barePod : Json :=
  .record [
    ("metadata", .record [
      ("id", .text "0123456789ABCDEF0123456789ABCDEF"), ("name", .text "web"),
      ("creationTimestamp", .text "2024-02-29 23:59:60.50+01:00")]),
    ("spec", .record [
      ("containers", .array [.array [.text "main", .text "nginx", .record [
        ("requests", .record [
          ("memory", .text " +1.50Gi "), ("cpu", .text ".5e0"), ("cpu", .text "250m")])]]]),
      ("owner", .null)])]

/-- The pod that this is, its time a leap second in UTC. -/
def Pod.web : Pod where
  id := ⟨(List.range 32).map fun i => ⟨i % 16,Nat.mod_lt i (by decide)⟩,rfl⟩
  name := "web"
  createdAt := ⟨⟨2024,2,29⟩,82799,1500000000⟩
  nodeName := ""
  containers := [⟨"main","nginx",
    ⟨.ofList [("cpu", ⟨"250m",25 * 10 ^ 7⟩), ("memory", ⟨"+1.50Gi",3 * 2 ^ 29 * 10 ^ 9⟩)],∅⟩⟩]
  overhead := ∅

def bareMetrics : Json :=
  .record [
    ("metadata", .record [("name", .text "n1"), ("creationTimestamp", .null)]),
    ("usage", .record [("memory", .text "1e3")])]

def NodeMetrics.thousandBytes : NodeMetrics :=
  ⟨"n1",none,none,none,.ofList [("memory", ⟨"1e3",10 ^ 12⟩)]⟩

theorem bare_models_read_back :
    (Node.ofJson? bareNode = some .fourProcessors ∧
      (parse? Node.fourProcessors.toJson.render).bind Node.ofJson? = some .fourProcessors) ∧
    (Pod.ofJson? barePod = some .web ∧
      (parse? Pod.web.toJson.render).bind Pod.ofJson? = some .web) ∧
    NodeMetrics.ofJson? bareMetrics = some .thousandBytes ∧
      (parse? NodeMetrics.thousandBytes.toJson.render).bind NodeMetrics.ofJson? =
        some .thousandBytes := by
  have hn : Node.ofJson? bareNode = some .fourProcessors := by decide +kernel
  have hp : Pod.ofJson? barePod = some .web := by decide +kernel
  have hm : NodeMetrics.ofJson? bareMetrics = some .thousandBytes := by decide +kernel
  obtain ⟨hnode,hpod,hmetrics,_⟩ := models_read_back
  have hnode := (hnode .fourProcessors).out 1 2
  have hpod := (hpod .web).out 1 2
  have hmetrics := (hmetrics .thousandBytes).out 1 2
  exact ⟨⟨hn,hnode.mp ⟨_,hn⟩⟩,⟨hp,hpod.mp ⟨_,hp⟩⟩,hm,hmetrics.mp ⟨_,hm⟩⟩

end NodeRank
