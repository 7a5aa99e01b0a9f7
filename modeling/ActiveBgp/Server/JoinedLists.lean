import ActiveBgp.Server.Requests

namespace ActiveBgp.Server

open ActiveBgp.Python ActiveBgp.Rib ActiveBgp.Data

variable {ip : Ipaddress}

/-! # Lists in a query

A sender joins the texts of a list with commas.  The server splits them into the
same texts again, and their checks return the sender's values.  Only an empty
list does not arrive.
-/

theorem stored_text {name : ListName} {value : Value} (stored : name.Stored value) :
    ',' ∉ value.text ∧ value.text ≠ [] := by
  have asn (isAsn : value.IsAsn) : ',' ∉ value.text ∧ value.text ≠ [] := by
    obtain ⟨number, rfl, _⟩ := isAsn
    exact ⟨Text.not_mem_ofInt (by decide) number, Text.ofInt_ne_nil number⟩
  cases name with
  | asSeq => exact asn stored
  | asSet => exact asn stored
  | community =>
      obtain ⟨text, rfl, colon, accepted⟩ := stored
      exact ⟨not_mem_community (by decide) (by decide) colon accepted, List.ne_nil_of_mem colon⟩

theorem check_text {name : ListName} {value : Value} (stored : name.Stored value) :
    name.check (.str value.text) = .ok value := by
  cases name with
  | asSeq => exact asListCheck_text stored
  | asSet => exact asListCheck_text stored
  | community =>
      obtain ⟨text, rfl, _, accepted⟩ := stored
      exact accepted

/-- The keyword argument that a joined list becomes. -/
def listArg (name : ListName) (items : List Value) : Option Kwarg :=
  if items = [] then none else some (.list name (items.map fun value => .str value.text))

/-- One list attribute on its way through the query and `nlri_add`. -/
theorem queryItem_list {name : ListName} {items : List Value} (stored : ∀ value ∈ items, name.Stored value) :
    queryItem (.list name) (",".toList.intercalate (items.map Value.text)) = .ok (listArg name items) := by
  have listed : queryItem (.list name) (",".toList.intercalate (items.map Value.text)) =
      .ok (if (",".toList.intercalate (items.map Value.text)).splitOn ',' = [[]] then none
        else some (.list name (((",".toList.intercalate (items.map Value.text)).splitOn ',').map .str))) := by
    cases name <;> rfl
  rw [listed, listArg]
  by_cases empty : items = []
  · subst empty
    rfl
  · have free : ∀ text ∈ items.map Value.text, ',' ∉ text ∧ text ≠ [] := by
      intro text member
      obtain ⟨value, inside, rfl⟩ := List.mem_map.mp member
      exact stored_text (stored value inside)
    have split : (",".toList.intercalate (items.map Value.text)).splitOn ',' = items.map Value.text :=
      List.splitOn_intercalate ',' (fun text member => (free text member).1) (by simpa using empty)
    have notBlank : items.map Value.text ≠ [[]] := fun blank => (free [] (by simp [blank])).2 rfl
    rw [split, if_neg notBlank, if_neg empty, List.map_map]
    rfl

/-- An absent entry counts as one with empty lists. -/
def shownList (old : Option (NLRI ip)) (name : ListName) : List Value :=
  (old.map fun entry => entry.list name).getD []

theorem bgpList_texts {name : ListName} {items : List Value} (stored : ∀ value ∈ items, name.Stored value) :
    bgpList name.check (items.map fun value => .str value.text) = .ok items :=
  bgpList_map fun value member => check_text (stored value member)

theorem assign_listArg (entry : NLRI ip) {name : ListName} {items : List Value}
    (stored : ∀ value ∈ items, name.Stored value) :
    (listArg name items).toList.foldlM NLRI.assign entry =
      .ok (entry.setList (writeOver [] (entry.list name) items) name) := by
  unfold listArg
  by_cases empty : items = []
  · rw [if_pos empty, empty, writeOver_blank]
    cases name <;> rfl
  · rw [if_neg empty, writeOver_of_ne _ _ empty]
    simp [NLRI.assign, bgpList_texts stored, Except.map]

theorem construct_asSeq (network : ip.Network) {given items : List Value}
    (built : bgpList asListCheck given = .ok items) :
    NLRI.construct network [.list .asSeq given] = .ok
      { announce := true, nextHop := .self, community := [], asSeq := items, asSet := [], routePrefix := network } := by
  have listed : Kwarg.listIn [.list .asSeq given] .asSeq = given := rfl
  simp only [NLRI.construct, listed, built]
  rfl

theorem handle_asSeq {state : State ip} (mirrored : Mirrored state) {path text : Text} {network : ip.Network}
    (routed : Routed ip path text network) {items : List Value} (stored : ∀ value ∈ items, value.IsAsn) :
    ∃ entry last,
      handle ⟨.post, path, [(.list .asSeq, ",".toList.intercalate (items.map Value.text))]⟩ state =
        (⟨200, .prefixes [(ip.networkText network, toDict entry)]⟩, last) ∧
      Mirrored last ∧ last.nlri.get? network = some entry ∧
      entry.asSeq = writeOver [] (shownList (state.nlri.get? network) .asSeq) items := by
  have read : queryOf (Request.mk .post path
      [(.list .asSeq, ",".toList.intercalate (items.map Value.text))]).items = .ok (listArg .asSeq items).toList := by
    have asSeq := queryItem_list (show ∀ value ∈ items, ListName.asSeq.Stored value from stored)
    rw [items_of_nodup (by simp)]
    simp only [queryOf, List.mapM_cons, List.mapM_nil, asSeq, bind,
      Except.bind, pure, Except.pure, Except.map]
    cases listArg .asSeq items <;> rfl
  have given : ∀ kwarg ∈ (listArg .asSeq items).toList, kwarg.Given := by
    intro kwarg member
    simp only [listArg, Option.mem_toList] at member
    split at member
    · contradiction
    · cases member
      exact fun _ _ => trivial
  have named : (Request.mk .post path [(.list .asSeq, ",".toList.intercalate (items.map Value.text))]).items.all
      (fun item => item.1.val ∉ RIB.parameters) = true := by
    rw [items_of_nodup (by simp), List.all_cons, List.all_nil, Bool.and_true, decide_eq_true_eq]
    exact keywords_plain.2.2 .asSeq
  have succeeds : ∃ entry, added (state.nlri.get? network) network (listArg .asSeq items).toList = .ok entry ∧
      entry.asSeq = writeOver [] (shownList (state.nlri.get? network) .asSeq) items := by
    cases found : state.nlri.get? network with
    | some old =>
        have asns : ∀ value ∈ items, ListName.asSeq.Stored value := stored
        exact ⟨_, assign_listArg old asns, rfl⟩
    | none =>
        have built := bgpList_texts (show ∀ value ∈ items, ListName.asSeq.Stored value from stored)
        simp only [shownList, Option.map_none, Option.getD_none, writeOver_fresh, listArg]
        by_cases empty : items = []
        · exact ⟨_, by rw [if_pos empty]; rfl, empty.symm⟩
        · rw [if_neg empty]
          exact ⟨_, construct_asSeq network built, rfl⟩
  obtain ⟨entry, assigned, same⟩ := succeeds
  obtain ⟨last, done, kept, stored, _⟩ := handle_post mirrored routed read given named assigned
  exact ⟨entry, last, done, kept, stored, same⟩

end ActiveBgp.Server
