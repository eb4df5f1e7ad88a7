import NodeRank.Telemetry.Server
import NodeRank.Proofs.Http.PlainName
import NodeRank.Proofs.Text.ByteOrder

/-! # The node that a request asks for

A request names its node by the last segment of its target. The name stands in the URL as it is, so
what the server is asked for is the node if the name is plain, and another one if it is not. A blank
behind a name makes no difference to the request, nor do slashes behind the URL of the server.
-/
namespace NodeRank

/-- The octets of a name. -/
def octetsOf (name : String) : List Nat := (Text.bytes name).map UInt8.toNat

theorem octetsOf_eq (name : String) : octetsOf name = name.toList.flatMap Http.octets := by
  unfold octetsOf
  rw [Text.bytes_eq_flatMap, List.map_flatMap]
  rfl

theorem octetsOf_injective {a b : String} (h : octetsOf a = octetsOf b) : a = b := by
  have hbytes : Text.bytes a = Text.bytes b :=
    List.map_injective_iff.mpr (fun x y hxy => UInt8.toNat_inj.mp hxy) h
  apply String.le_antisymm
  · rw [Text.le_iff_bytes_le, hbytes]
    exact List.le_refl _
  · rw [Text.le_iff_bytes_le, hbytes]
    exact List.le_refl _

namespace Endpoint

/-- The URL names a server and a path on it and no more, and the token can be sent. -/
structure Usable (e : Endpoint) (path : List Char) : Prop where
  path : Http.pathOf? (Http.cleanedStart e.baseUrl) = some path
  token : ∀ token ∈ e.token, token.toList.all isHeaderChar

variable {e : Endpoint} {path : List Char}

theorem request?_eq (e : Endpoint) (node : String) :
    e.request? node = (Http.target? (e.nodeUrl node)).bind fun target =>
      match e.token with
      | none => some ⟨target,none⟩
      | some token => (authorization? token).map (⟨target,some ·⟩) := rfl

/-- With a token that can be sent there is a request for each target. -/
theorem request?_of_target (h : e.Usable path) {node target : String}
    (htarget : Http.target? (e.nodeUrl node) = some target) :
    ∃ r, e.request? node = some r ∧ r.target = target := by
  rw [request?_eq, htarget, Option.bind_some]
  cases htoken : e.token with
  | none => exact ⟨_,rfl,rfl⟩
  | some token =>
    obtain ⟨header,hheader⟩ : ∃ header, authorization? token = some header := by
      unfold authorization?
      rw [if_pos (h.token token htoken)]
      exact ⟨_,rfl⟩
    exact ⟨⟨target,some header⟩,by simp [hheader],rfl⟩

/-- The path of the measurements behind its first slash. -/
def nodesSegments : List Char := nodeMetricsPath.toList.tail

theorem nodeMetricsPath_eq : nodeMetricsPath.toList = '/' :: nodesSegments := by decide

theorem all_nodesSegments : nodesSegments.all fun c =>
    !Http.endsPath c && c != '\\' && !Http.isEscapedInPath c := by decide

theorem nodeUrl_eq (e : Endpoint) (node : String) :
    e.nodeUrl node =
      String.ofList ((e.baseUrl ++ '/' :: nodesSegments) ++ '/' :: node.toList) := by
  rw [nodeUrl, nodeMetricsPath_eq]

theorem pathOf?_nodes (h : e.Usable path) :
    Http.pathOf? (Http.cleanedStart (e.baseUrl ++ '/' :: nodesSegments)) =
      some (path ++ '/' :: nodesSegments) := by
  rw [Http.cleanedStart_append_slash,
    show nodesSegments.filter Http.isKept = nodesSegments by decide]
  refine Http.pathOf?_append_slash h.path fun c hc => ?_
  have hall := List.all_eq_true.mp all_nodesSegments c hc
  simp_all

/-- Every node has a request, and its last segment is what is left of the name. -/
theorem request?_of_usable (h : e.Usable path) (node : String) :
    ∃ r, e.request? node = some r ∧
      Http.lastSegment r.target = Http.unescape (Http.lastPart node.toList) := by
  have hlast := Http.lastSegment_append_slash (pathOf?_nodes h) node.toList
  rw [← nodeUrl_eq] at hlast
  obtain ⟨target,htarget,hlast⟩ := Option.map_eq_some_iff.mp hlast
  obtain ⟨r,hr,rfl⟩ := request?_of_target h htarget
  exact ⟨r,hr,hlast⟩

theorem request?_names_iff (h : e.Usable path) {node : String} {r : MetricsRequest}
    (hr : e.request? node = some r) :
    Http.lastSegment r.target = octetsOf node ↔ Http.Plain node.toList := by
  obtain ⟨r',hr',hlast⟩ := request?_of_usable h node
  obtain rfl := Option.some.inj (hr.symm.trans hr')
  rw [hlast, octetsOf_eq]
  exact Http.unescape_lastPart_iff

/-- The target of a plain name. -/
def targetOf (path : List Char) (node : String) : String :=
  String.ofList (Http.sentPath path ++ nodeMetricsPath.toList ++
    '/' :: Http.escape Http.isEscapedInPath node.toList)

theorem request?_of_plain (h : e.Usable path) {node : String} (hnode : Http.Plain node.toList)
    {r : MetricsRequest} (hr : e.request? node = some r) : r.target = targetOf path node := by
  have htarget := Http.target?_of_plain (pathOf?_nodes h) hnode
  have hsegments : ∀ c ∈ nodesSegments, c ≠ '\\' ∧ Http.isEscapedInPath c = false := by
    intro c hc
    have hall := List.all_eq_true.mp all_nodesSegments c hc
    simp_all
  rw [← nodeUrl_eq, Http.sentPath_append_slash (by decide) hsegments, ← nodeMetricsPath_eq]
    at htarget
  obtain ⟨r',hr',htarget'⟩ := request?_of_target h htarget
  obtain rfl := Option.some.inj (hr.symm.trans hr')
  exact htarget'

theorem target?_nodeUrl_append_blank (e : Endpoint) (node : String) :
    Http.target? (e.nodeUrl (node ++ " ")) = Http.target? (e.nodeUrl node) := by
  have hclean : Http.cleaned (e.nodeUrl (node ++ " ")).toList =
      Http.cleaned (e.nodeUrl node).toList := by
    rw [nodeUrl_eq, nodeUrl_eq, String.toList_ofList, String.toList_ofList, String.toList_append,
      Http.cleaned_append_slash, Http.cleaned_append_slash]
    exact congrArg _ (congrArg _ (Http.cleanedEnd_append_blank node.toList))
  unfold Http.target?
  rw [hclean]

/-- A blank behind a name makes no difference to the request. -/
theorem request?_append_blank (e : Endpoint) (node : String) :
    e.request? (node ++ " ") = e.request? node := by
  rw [request?_eq, request?_eq, target?_nodeUrl_append_blank]

/-- Nor does a fragment behind a plain name. -/
theorem request?_append_fragment (h : e.Usable path) {node : String}
    (hnode : Http.Plain node.toList) (text : String) :
    e.request? (node ++ "#" ++ text) = e.request? node := by
  have htarget := Http.target?_append_fragment (pathOf?_nodes h) hnode text.toList
  have htext : (node ++ "#" ++ text).toList = node.toList ++ '#' :: text.toList := by simp
  rw [← nodeUrl_eq, ← htext, ← nodeUrl_eq] at htarget
  rw [request?_eq, request?_eq, htarget]

/-- The endpoint with more slashes behind the URL of the server. -/
def withSlashes (e : Endpoint) (k : Nat) : Endpoint :=
  { e with serverUrl := e.serverUrl ++ String.ofList (List.replicate k '/') }

theorem baseUrl_withSlashes (e : Endpoint) (k : Nat) : (e.withSlashes k).baseUrl = e.baseUrl := by
  unfold baseUrl withSlashes
  rw [String.toList_append, String.toList_ofList, List.reverse_append, List.reverse_replicate,
    List.dropWhile_append_of_pos]
  exact fun c hc => by simp [List.eq_of_mem_replicate hc]

theorem request?_withSlashes (e : Endpoint) (k : Nat) (node : String) :
    (e.withSlashes k).request? node = e.request? node := by
  have hurl : (e.withSlashes k).nodeUrl node = e.nodeUrl node := by
    rw [nodeUrl, nodeUrl, baseUrl_withSlashes]
  rw [request?_eq, request?_eq, hurl]
  rfl

theorem Usable.withSlashes (h : e.Usable path) (k : Nat) : (e.withSlashes k).Usable path :=
  ⟨by rw [baseUrl_withSlashes]; exact h.path,h.token⟩

/-- Every reading of a node is one of any other node with the same request. -/
theorem usage_ok_of_request?_eq {a b : String} (h : e.request? a = e.request? b)
    {server : MetricsRequest → MetricsReply} {u : Usage} (ha : e.usage server a = .ok u) :
    e.usage server b = .ok u := by
  unfold usage at ha ⊢
  rw [← h]
  cases hr : e.request? a with
  | none => simp [hr] at ha
  | some r =>
    simp only [hr] at ha ⊢
    cases hreply : server r with
    | answered status body =>
      simp only [hreply, MetricsReply.reading] at ha ⊢
      split_ifs at ha ⊢
      exact ha
    | dropped => simp [hreply, MetricsReply.reading] at ha
    | silent => simp [hreply, MetricsReply.reading] at ha

/-- A server that answers by the last segment of a target answers for a node exactly if the name of
the node is plain. -/
theorem answered_iff (h : e.Usable path) (node : String) :
    (∀ answer : List Nat → MetricsReply,
        e.usage (fun r => answer (Http.lastSegment r.target)) node =
          (answer (octetsOf node)).reading node) ↔
      Http.Plain node.toList := by
  obtain ⟨r,hr,_⟩ := request?_of_usable h node
  have husage (server : MetricsRequest → MetricsReply) :
      e.usage server node = (server r).reading node := by
    unfold usage
    rw [hr]
  rw [← request?_names_iff h hr]
  constructor
  · intro hanswer
    by_contra hne
    have hsilent := hanswer fun segment => if segment = octetsOf node then .silent else .dropped
    rw [husage, if_neg hne, if_pos rfl] at hsilent
    cases hsilent
  · intro hsegment answer
    rw [husage, hsegment]

/-- At a usable endpoint every node has a request. It names the node by the last segment of its
target exactly if the name of the node is plain, two requests are for two nodes exactly if both
names are plain, and only for a plain name is an answer always one for the node. A blank behind a
name is lost, and so are a fragment behind a plain name and slashes behind the URL of the server. -/
theorem names_node_iff_plain (h : e.Usable path) :
    (∀ node, ∃ r, e.request? node = some r ∧
      (Http.lastSegment r.target = octetsOf node ↔ Http.Plain node.toList) ∧
      (Http.Plain node.toList → r.target = targetOf path node)) ∧
    (∀ a b, a ≠ b → ∃ r s, e.request? a = some r ∧ e.request? b = some s ∧
      (r.target ≠ s.target ∧ Http.lastSegment r.target = octetsOf a ∧
          Http.lastSegment s.target = octetsOf b ↔
        Http.Plain a.toList ∧ Http.Plain b.toList)) ∧
    (∀ node, (∀ answer : List Nat → MetricsReply,
        e.usage (fun r => answer (Http.lastSegment r.target)) node =
          (answer (octetsOf node)).reading node) ↔ Http.Plain node.toList) ∧
    (∀ node, e.request? (node ++ " ") = e.request? node) ∧
    (∀ node, Http.Plain node.toList →
      ∀ text, e.request? (node ++ "#" ++ text) = e.request? node) ∧
    ∀ k, (e.withSlashes k).Usable path ∧
      ∀ node, (e.withSlashes k).request? node = e.request? node := by
  refine ⟨fun node => ?_,fun a b hab => ?_,answered_iff h,request?_append_blank e,
    fun _ => request?_append_fragment h,fun k => ⟨h.withSlashes k,request?_withSlashes e k⟩⟩
  · obtain ⟨r,hr,_⟩ := request?_of_usable h node
    exact ⟨r,hr,request?_names_iff h hr,fun hnode => request?_of_plain h hnode hr⟩
  · obtain ⟨r,hr,_⟩ := request?_of_usable h a
    obtain ⟨s,hs,_⟩ := request?_of_usable h b
    refine ⟨r,s,hr,hs,?_⟩
    rw [request?_names_iff h hr, request?_names_iff h hs]
    refine ⟨And.right,fun hplain => ⟨fun htarget => hab (octetsOf_injective ?_),hplain⟩⟩
    rw [← (request?_names_iff h hr).mpr hplain.1, htarget,
      (request?_names_iff h hs).mpr hplain.2]

theorem usable_standard : standard.Usable [] := ⟨by decide +kernel,nofun⟩

theorem plain_n1 : Http.Plain "n1".toList := by decide

theorem names_node_n1 :
    standard.Usable [] ∧ Http.Plain "n1".toList ∧
      ∃ r, standard.request? "n1" = some r ∧ (standard.withSlashes 2).request? "n1" = some r ∧
        r.target = "/apis/metrics.k8s.io/v1beta1/nodes/n1" ∧
        Http.lastSegment r.target = octetsOf "n1" := by
  obtain ⟨hnodes,_,_,_,_,hslashes⟩ := names_node_iff_plain usable_standard
  obtain ⟨r,hr,hnames,htarget⟩ := hnodes "n1"
  exact ⟨usable_standard,plain_n1,r,hr,((hslashes 2).2 "n1").trans hr,
    (htarget plain_n1).trans (by decide +kernel),hnames.mpr plain_n1⟩

theorem not_named_of_fragment :
    standard.Usable [] ∧ "n1#a" ≠ "n1" ∧
      (∃ r, standard.request? "n1" = some r ∧ standard.request? "n1#a" = some r ∧
        Http.lastSegment r.target = octetsOf "n1" ∧ Http.lastSegment r.target ≠ octetsOf "n1#a") ∧
      ∀ server u, standard.usage server "n1" = .ok u → standard.usage server "n1#a" = .ok u := by
  have hfragment : standard.request? "n1#a" = standard.request? "n1" := by
    rw [show "n1#a" = "n1" ++ "#" ++ "a" by decide]
    exact request?_append_fragment usable_standard plain_n1 "a"
  obtain ⟨r,hr,_⟩ := request?_of_usable usable_standard "n1"
  have hnamed := (request?_names_iff usable_standard hr).mpr plain_n1
  have hunnamed := mt (request?_names_iff usable_standard (hfragment.trans hr)).mp (by decide)
  exact ⟨usable_standard,by decide,⟨r,hr,hfragment.trans hr,hnamed,hunnamed⟩,
    fun server u h => usage_ok_of_request?_eq hfragment.symm h⟩

end Endpoint
end NodeRank
