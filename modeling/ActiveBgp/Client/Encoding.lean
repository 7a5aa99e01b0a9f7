import ActiveBgp.Client.NlriClient
import ActiveBgp.Server.JoinedLists

namespace ActiveBgp.Client

open ActiveBgp.Python ActiveBgp.Rib ActiveBgp.Server ActiveBgp.Data

variable {ip : Ipaddress}

/-- The keyword arguments that the server passes on. -/
def sentQuery (nlri : NLRI ip) : List Kwarg :=
  .nextHop (.str nlri.nextHop.text) :: ((listArg .asSeq nlri.asSeq).toList ++
    ((listArg .asSet nlri.asSet).toList ++ ((listArg .community nlri.community).toList ++
      [.announce nlri.announce])))

section Query

variable {nlri : NLRI ip}

theorem joined_community (typed : nlri.WellTyped) :
    nlri.community.mapM Value.joined = .ok (nlri.community.map Value.text) := by
  have general (items : List Value) (stored : ∀ value ∈ items, value.IsCommunity) :
      items.mapM Value.joined = .ok (items.map Value.text) := by
    induction items with
    | nil => rfl
    | cons first rest ih =>
        obtain ⟨text, rfl, _⟩ := stored first (by simp)
        have tail := ih fun value member => stored value (by simp [member])
        simp only [List.mapM_cons, Value.joined, tail, bind, Except.bind, pure, Except.pure, List.map_cons,
          Value.text]
  exact general _ typed.community

theorem queryItem_announce (value : Bool) :
    queryItem .announce (boolText value) = .ok (some (.announce value)) := by
  cases value <;> rfl

/-- The server reads the client's values, short of its empty lists. -/
theorem queryOf_params (typed : nlri.WellTyped) :
    ∃ args, params nlri = .ok args ∧ ∀ method path,
      queryOf (Request.mk method path args).items = .ok (sentQuery nlri) ∧
      (Request.mk method path args).items.all (fun item => item.1.val ∉ RIB.parameters) = true := by
  refine ⟨_, by simp only [params, joined_community typed, bind, Except.bind, pure, Except.pure]; rfl, ?_⟩
  intro method path
  rw [items_of_nodup (by simp only [List.map_cons, List.map_nil]; decide)]
  have asSeq := queryItem_list (typed.list .asSeq)
  have asSet := queryItem_list (typed.list .asSet)
  have community := queryItem_list (typed.list .community)
  simp only [NLRI.list] at asSeq asSet community
  have nextHop : queryItem .nextHop nlri.nextHop.text = .ok (some (.nextHop (.str nlri.nextHop.text))) := rfl
  simp only [queryOf, List.mapM_cons, List.mapM_nil, asSeq, asSet, community, nextHop, queryItem_announce,
    bind, Except.bind, pure, Except.pure, Except.map, sentQuery]
  refine ⟨?_, by simp [keywords_plain]⟩
  cases listArg .asSeq nlri.asSeq <;> cases listArg .asSet nlri.asSet <;>
    cases listArg .community nlri.community <;> rfl

theorem sentQuery_given (typed : nlri.WellTyped) : ∀ kwarg ∈ sentQuery nlri, kwarg.Given := by
  have listed (name : ListName) {kwarg : Kwarg} (member : kwarg ∈ (listArg name (nlri.list name)).toList) :
      kwarg.Given := by
    simp only [listArg, Option.mem_toList] at member
    split at member
    · contradiction
    · cases member
      intro value inside
      obtain ⟨original, known, rfl⟩ := List.mem_map.mp inside
      have stored := typed.list name original known
      cases name with
      | asSeq => trivial
      | asSet => trivial
      | community =>
          obtain ⟨text, rfl, colon, _⟩ := stored
          exact colon
  intro kwarg member
  simp only [sentQuery, List.mem_cons, List.mem_append, List.not_mem_nil, or_false] at member
  rcases member with rfl | asSeq | asSet | community | rfl
  · trivial
  · exact listed .asSeq asSeq
  · exact listed .asSet asSet
  · exact listed .community community
  · trivial

def received (old : Option (NLRI ip)) (nlri : NLRI ip) : NLRI ip :=
  { nlri with
    community := writeOver [] (shownList old .community) nlri.community
    asSeq := writeOver [] (shownList old .asSeq) nlri.asSeq
    asSet := writeOver [] (shownList old .asSet) nlri.asSet }

theorem assign_nextHop (entry : NLRI ip) (hop : NextHop ip) :
    entry.assign (.nextHop (.str hop.text)) = .ok { entry with nextHop := hop } := by
  cases hop with
  | self => rfl
  | address host =>
      obtain ⟨_, _, notSelf⟩ := ip.str_plain host
      have different : Value.str (ip.str host) ≠ .str "self".toList := fun same =>
        notSelf (Value.str.inj same)
      simp only [NLRI.assign, NextHop.text, if_neg different, ip.address?_print]

theorem received_update (typed : nlri.WellTyped) (entry : NLRI ip)
    (same : entry.routePrefix = nlri.routePrefix) :
    (sentQuery nlri).foldlM NLRI.assign entry = .ok (received (some entry) nlri) := by
  rw [sentQuery, List.foldlM_cons, assign_nextHop, except_bind_ok, List.foldlM_append,
    assign_listArg _ typed.asSeq, except_bind_ok, List.foldlM_append, assign_listArg _ typed.asSet,
    except_bind_ok, List.foldlM_append, assign_listArg _ typed.community, except_bind_ok]
  simp [NLRI.assign, received, shownList, NLRI.setList, NLRI.list, same]

theorem listIn_sentQuery (nlri : NLRI ip) (name : ListName) :
    Kwarg.listIn (sentQuery nlri) name = (nlri.list name).map fun value => .str value.text := by
  have listed (given : ListName) (items : List Value) :
      (listArg given items).toList.findSome? (Kwarg.list? name) =
        if given = name ∧ items ≠ [] then some (items.map fun value => .str value.text) else none := by
    unfold listArg
    by_cases empty : items = []
    · simp [empty]
    · by_cases same : given = name <;> simp [empty, same, Kwarg.list?]
  simp only [Kwarg.listIn, sentQuery, List.findSome?_cons, List.findSome?_append, listed, Kwarg.list?]
  cases name with
  | community => cases items : nlri.community <;> simp [NLRI.list, items]
  | asSeq => cases items : nlri.asSeq <;> simp [NLRI.list, items]
  | asSet => cases items : nlri.asSet <;> simp [NLRI.list, items]

theorem received_create (typed : nlri.WellTyped) :
    NLRI.construct nlri.routePrefix (sentQuery nlri) = .ok (received none nlri) := by
  have known : (sentQuery nlri).any Kwarg.isOther = false := by
    have listed (name : ListName) (items : List Value) :
        (listArg name items).toList.any Kwarg.isOther = false := by
      unfold listArg
      split <;> rfl
    simp [sentQuery, Kwarg.isOther, listed]
  have announced : (sentQuery nlri).findSome? Kwarg.announce? = some nlri.announce := by
    have listed (name : ListName) (items : List Value) :
        (listArg name items).toList.findSome? Kwarg.announce? = none := by
      unfold listArg
      split <;> rfl
    simp [sentQuery, List.findSome?_cons, List.findSome?_append, Kwarg.announce?, listed]
  have hop : (sentQuery nlri).findSome? Kwarg.nextHop? = some (.str nlri.nextHop.text) := rfl
  have built (name : ListName) : bgpList name.check (Kwarg.listIn (sentQuery nlri) name) = .ok (nlri.list name) := by
    rw [listIn_sentQuery]
    exact bgpList_texts (typed.list name)
  have community := built .community
  have asSeq := built .asSeq
  have asSet := built .asSet
  simp only [ListName.check] at community asSeq asSet
  simp only [NLRI.construct, known, community, asSeq, asSet, hop, announced, Option.getD_some, assign_nextHop,
    except_bind_ok, received, shownList, Option.map_none, Option.getD_none, writeOver_fresh]
  rfl

end Query

section Request

variable {nlri : NLRI ip} {link : Link ip}

theorem request_post (mirrored : Mirrored link.server) (typed : nlri.WellTyped) :
    ∃ server, request .post nlri link = .ok () ⟨server, link.exchanges ++ [⟨.post, nlri, server⟩]⟩ ∧
      Mirrored server ∧
      server.nlri.get? nlri.routePrefix = some (received (link.server.nlri.get? nlri.routePrefix) nlri) ∧
      ∀ key, key ≠ nlri.routePrefix → server.nlri.get? key = link.server.nlri.get? key := by
  obtain ⟨args, sent, parsed⟩ := queryOf_params typed
  have succeeds : added (link.server.nlri.get? nlri.routePrefix) nlri.routePrefix (sentQuery nlri) =
      .ok (received (link.server.nlri.get? nlri.routePrefix) nlri) := by
    cases found : link.server.nlri.get? nlri.routePrefix with
    | none => exact received_create typed
    | some entry => exact received_update typed entry (mirrored.entries _ entry found).2
  obtain ⟨server, answered, kept, entry, elsewhere⟩ := handle_post mirrored
    (routed_networkText nlri.routePrefix) (parsed .post _).1 (sentQuery_given typed) (parsed .post _).2 succeeds
  refine ⟨server, ?_, kept, entry, elsewhere⟩
  simp [request, sent, Effect.bind_eq, answered]

theorem request_delete (mirrored : Mirrored link.server) (typed : nlri.WellTyped) :
    ∃ server, request .delete nlri link = .ok () ⟨server, link.exchanges ++ [⟨.delete, nlri, server⟩]⟩ ∧
      Mirrored server ∧ server.nlri.get? nlri.routePrefix = none ∧
      ∀ key, key ≠ nlri.routePrefix → server.nlri.get? key = link.server.nlri.get? key := by
  obtain ⟨args, sent, _⟩ := queryOf_params typed
  obtain ⟨server, answered, kept, missing, elsewhere⟩ := handle_delete mirrored
    (routed_networkText nlri.routePrefix) args
  refine ⟨server, ?_, kept, missing, elsewhere⟩
  simp [request, sent, Effect.bind_eq, answered]

end Request

end ActiveBgp.Client
