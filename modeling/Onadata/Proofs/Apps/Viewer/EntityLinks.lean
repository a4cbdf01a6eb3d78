import Onadata.Apps.Viewer.Models.EntityLinks
import Onadata.Lib.Run

/-!
# `Onadata.Proofs.Apps.Viewer.EntityLinks`: the active links of a form

`Declares` and `SelectsItemset` say what stands anywhere in the JSON of a form. `registered` and
`itemsets` are the lists that the handlers walk through: a node without an itemset is searched with
all that is below it, but of the entities of one parent only the first one counts.

The links that the JSON no longer has are deactivated by the names of their lists, without regard
to the project. `linksFollow_run_iff`: in a run, the active links are those of the current JSON and
project after every publication, if and only if no active link to another project has a name that
is linked again, and the entities that are declared are the first ones of a form with an entity
definition.
-/

set_option autoImplicit false

namespace Onadata

open Onadata.Lib

/-- Somewhere below these nodes, an entity of a node `meta` declares the dataset. -/
inductive Declares : List FormNode → String → Prop
  | here {children : List FormNode} {meta_ entity : FormNode} {dataset : String} :
      meta_ ∈ children → meta_.name = "meta" → entity ∈ meta_.children →
        entity.name = "entity" → getEntityDataset entity = some dataset →
          Declares children dataset
  | inside {children : List FormNode} {child : FormNode} {dataset : String} :
      child ∈ children → Declares child.children dataset → Declares children dataset

/-- The same for the first entity of its parent. -/
inductive DeclaresFirst : List FormNode → String → Prop
  | here {children : List FormNode} {entity : FormNode} {dataset : String} :
      firstEntity children = some entity → getEntityDataset entity = some dataset →
        DeclaresFirst children dataset
  | inside {children : List FormNode} {child : FormNode} {dataset : String} :
      child ∈ children → DeclaresFirst child.children dataset → DeclaresFirst children dataset

/-- Somewhere below these nodes, the dataset is the itemset of a select. -/
inductive SelectsItemset : List FormNode → String → Prop
  | here {children : List FormNode} {name type itemset : String} :
      FormNode.fromItemset name type itemset ∈ children → isCandidateSurveyType type = true →
        SelectsItemset children (datasetName itemset)
  | inside {children : List FormNode} {child : FormNode} {dataset : String} :
      child ∈ children → SelectsItemset child.children dataset → SelectsItemset children dataset

/-- A first entity is an entity. -/
theorem DeclaresFirst.declares {children : List FormNode} {dataset : String}
    (h : DeclaresFirst children dataset) : Declares children dataset := by
  induction h with
  | @here children entity dataset hfirst hdataset =>
      unfold firstEntity at hfirst
      have hname : decide (entity.name = "entity") = true :=
        @List.find?_some _ (fun node : FormNode => decide (node.name = "entity")) _ _ hfirst
      obtain ⟨meta_, hmeta, hentity⟩ := List.mem_flatMap.mp (List.mem_of_find?_eq_some hfirst)
      obtain ⟨hmem, hmetaName⟩ := List.mem_filter.mp hmeta
      exact .here hmem (of_decide_eq_true hmetaName) hentity (of_decide_eq_true hname) hdataset
  | inside hchild _ ih => exact .inside hchild ih

/-! ### What the handlers walk through -/

mutual

/-- The datasets that are registered for what is below a node. -/
def FormNode.registered : FormNode → List (Option String)
  | .node _ _ _ _ children =>
      registeredNodes children ++ (firstEntity children).toList.map getEntityDataset
  | .fromItemset _ _ _ => []

/-- The datasets that are registered for what is below the nodes. -/
def registeredNodes : List FormNode → List (Option String)
  | [] => []
  | child :: rest => child.registered ++ registeredNodes rest

end

/-- The datasets that are registered. -/
def registered (children : List FormNode) : List (Option String) :=
  registeredNodes children ++ (firstEntity children).toList.map getEntityDataset

mutual

/-- The itemsets of the selects in a node. -/
def FormNode.itemsets : FormNode → List String
  | .fromItemset _ type itemset =>
      if isCandidateSurveyType type then [datasetName itemset] else []
  | .node _ _ _ _ children => itemsets children

/-- The itemsets of the selects in the nodes. -/
def itemsets : List FormNode → List String
  | [] => []
  | child :: rest => child.itemsets ++ itemsets rest

end

/-- The last part of `_register` in terms of the datasets. -/
theorem registerMetas_eq (children : List FormNode) (s : FormLinks × List String) :
    FormLinks.registerMetas children s =
      ((firstEntity children).toList.map getEntityDataset).foldlM FormLinks.registerDataset s := by
  unfold FormLinks.registerMetas
  cases firstEntity children with
  | none => rfl
  | some entity => exact (bind_pure _).symm

mutual

theorem registerNode_eq (child : FormNode) (s : FormLinks × List String) :
    FormLinks.registerNode child s = child.registered.foldlM FormLinks.registerDataset s := by
  cases child with
  | fromItemset name type itemset => rfl
  | node name type parameters value children =>
      rw [FormLinks.registerNode, FormNode.registered, List.foldlM_append, registerNodes_eq children]
      exact bind_congr fun s => registerMetas_eq children s

theorem registerNodes_eq (children : List FormNode) (s : FormLinks × List String) :
    FormLinks.registerNodes children s =
      (registeredNodes children).foldlM FormLinks.registerDataset s := by
  cases children with
  | nil => rfl
  | cons child rest =>
      rw [FormLinks.registerNodes, registeredNodes, List.foldlM_append, registerNode_eq child]
      exact bind_congr fun s => registerNodes_eq rest s

end

/-- `_register` registers the datasets one after the other. -/
theorem register_eq (children : List FormNode) (s : FormLinks × List String) :
    FormLinks.register children s = (registered children).foldlM FormLinks.registerDataset s := by
  rw [FormLinks.register, registered, List.foldlM_append, registerNodes_eq]
  exact bind_congr fun s => registerMetas_eq children s

mutual

theorem linkNode_eq (child : FormNode) (s : FormLinks × List String) :
    FormLinks.linkNode child s = child.itemsets.foldlM FormLinks.linkItemset s := by
  cases child with
  | fromItemset name type itemset =>
      rw [FormLinks.linkNode, FormNode.itemsets]
      cases isCandidateSurveyType type with
      | true => exact (bind_pure _).symm
      | false => rfl
  | node name type parameters value children =>
      rw [FormLinks.linkNode, FormNode.itemsets, linkNodes_eq children]

/-- `link_dataset` links the itemsets one after the other. -/
theorem linkNodes_eq (children : List FormNode) (s : FormLinks × List String) :
    FormLinks.linkNodes children s = (itemsets children).foldlM FormLinks.linkItemset s := by
  cases children with
  | nil => rfl
  | cons child rest =>
      rw [FormLinks.linkNodes, itemsets, List.foldlM_append, linkNode_eq child]
      exact bind_congr fun s => linkNodes_eq rest s

end

/-- The datasets of the first entity of these nodes. -/
theorem mem_firstEntity_iff {children : List FormNode} {dataset : Option String} :
    dataset ∈ (firstEntity children).toList.map getEntityDataset ↔
      ∃ entity, firstEntity children = some entity ∧ getEntityDataset entity = dataset := by
  rw [List.mem_map]
  refine exists_congr fun entity => and_congr_left fun _ => ?_
  rw [Option.mem_toList]

mutual

theorem declaresFirst_of_mem_node {child : FormNode} {dataset : String}
    (h : some dataset ∈ child.registered) : DeclaresFirst child.children dataset := by
  cases child with
  | fromItemset name type itemset => exact absurd h List.not_mem_nil
  | node name type parameters value children =>
      rw [FormNode.registered] at h
      cases List.mem_append.mp h with
      | inl hinside =>
          obtain ⟨child, hchild, hdeclares⟩ := declaresFirst_of_mem_nodes hinside
          exact .inside hchild hdeclares
      | inr hfirst =>
          obtain ⟨entity, hentity, hdataset⟩ := mem_firstEntity_iff.mp hfirst
          exact .here hentity hdataset

theorem declaresFirst_of_mem_nodes {children : List FormNode} {dataset : String}
    (h : some dataset ∈ registeredNodes children) :
    ∃ child ∈ children, DeclaresFirst child.children dataset := by
  cases children with
  | nil => exact absurd h List.not_mem_nil
  | cons child rest =>
      rw [registeredNodes] at h
      cases List.mem_append.mp h with
      | inl hchild => exact ⟨child, List.mem_cons_self, declaresFirst_of_mem_node hchild⟩
      | inr hrest =>
          obtain ⟨other, hother, hdeclares⟩ := declaresFirst_of_mem_nodes hrest
          exact ⟨other, List.mem_cons_of_mem _ hother, hdeclares⟩

end

/-- What is registered below a node is registered. -/
theorem mem_registeredNodes {children : List FormNode} {child : FormNode} (hchild : child ∈ children)
    {dataset : Option String} (h : dataset ∈ child.registered) :
    dataset ∈ registeredNodes children := by
  induction children with
  | nil => exact absurd hchild List.not_mem_nil
  | cons first rest ih =>
      rw [registeredNodes, List.mem_append]
      cases List.mem_cons.mp hchild with
      | inl heq => exact Or.inl (heq ▸ h)
      | inr hrest => exact Or.inr (ih hrest)

/-- A dataset is registered if and only if it is the one of a first entity. -/
theorem mem_registered_iff {children : List FormNode} {dataset : String} :
    some dataset ∈ registered children ↔ DeclaresFirst children dataset := by
  constructor
  · intro h
    cases List.mem_append.mp h with
    | inl hinside =>
        obtain ⟨child, hchild, hdeclares⟩ := declaresFirst_of_mem_nodes hinside
        exact .inside hchild hdeclares
    | inr hfirst =>
        obtain ⟨entity, hentity, hdataset⟩ := mem_firstEntity_iff.mp hfirst
        exact .here hentity hdataset
  · intro h
    induction h with
    | here hentity hdataset =>
        exact List.mem_append_right _ (mem_firstEntity_iff.mpr ⟨_, hentity, hdataset⟩)
    | @inside children child dataset hchild _ ih =>
        refine List.mem_append_left _ (mem_registeredNodes hchild ?_)
        cases child with
        | fromItemset name type itemset => exact absurd ih List.not_mem_nil
        | node name type parameters value nodes => exact ih

mutual

theorem selectsItemset_of_mem_node {child : FormNode} {dataset : String}
    (h : dataset ∈ child.itemsets) {children : List FormNode} (hchild : child ∈ children) :
    SelectsItemset children dataset := by
  cases child with
  | fromItemset name type itemset =>
      rw [FormNode.itemsets] at h
      by_cases hselect : isCandidateSurveyType type = true
      · rw [if_pos hselect, List.mem_singleton] at h
        rw [h]
        exact .here hchild hselect
      · rw [if_neg hselect] at h
        exact absurd h List.not_mem_nil
  | node name type parameters value nodes =>
      exact .inside hchild (selectsItemset_of_mem_nodes h fun _ hnode => hnode)

theorem selectsItemset_of_mem_nodes {nodes : List FormNode} {dataset : String}
    (h : dataset ∈ itemsets nodes) {children : List FormNode}
    (hnodes : ∀ node ∈ nodes, node ∈ children) : SelectsItemset children dataset := by
  cases nodes with
  | nil => exact absurd h List.not_mem_nil
  | cons child rest =>
      rw [itemsets] at h
      cases List.mem_append.mp h with
      | inl hfirst => exact selectsItemset_of_mem_node hfirst (hnodes child List.mem_cons_self)
      | inr hrest =>
          exact selectsItemset_of_mem_nodes hrest
            fun node hnode => hnodes node (List.mem_cons_of_mem _ hnode)

end

/-- The itemsets in a node are among those of its parent. -/
theorem mem_itemsets {children : List FormNode} {child : FormNode} (hchild : child ∈ children)
    {dataset : String} (h : dataset ∈ child.itemsets) : dataset ∈ itemsets children := by
  induction children with
  | nil => exact absurd hchild List.not_mem_nil
  | cons first rest ih =>
      rw [itemsets, List.mem_append]
      cases List.mem_cons.mp hchild with
      | inl heq => exact Or.inl (heq ▸ h)
      | inr hrest => exact Or.inr (ih hrest)

/-- A dataset is among the itemsets if and only if a select has it. -/
theorem mem_itemsets_iff {children : List FormNode} {dataset : String} :
    dataset ∈ itemsets children ↔ SelectsItemset children dataset := by
  constructor
  · exact fun h => selectsItemset_of_mem_nodes h fun _ hnode => hnode
  · intro h
    induction h with
    | here hchild hselect =>
        refine mem_itemsets hchild ?_
        rw [FormNode.itemsets, if_pos hselect]
        exact List.mem_singleton_self _
    | @inside children child dataset hchild _ ih =>
        refine mem_itemsets hchild ?_
        cases child with
        | fromItemset name type itemset => exact absurd ih List.not_mem_nil
        | node name type parameters value nodes => exact ih

/-! ### The rows of the entity lists -/

namespace FormLinks

variable {db mid db' : FormLinks} {name : String} {pk : Nat}

/-- The entity list is the one with the name in the project of the form. -/
def Listed (db : FormLinks) (pk : Nat) (name : String) : Prop :=
  db.entityLists.get? pk = some { name := name, project := db.project }

/-- A row with the name in the project. -/
theorem listed_of_isNamed {item : Nat × EntityList} (hmem : item ∈ db.entityLists.rows)
    (h : db.isNamed name item = true) : db.Listed item.1 name := by
  unfold isNamed at h
  rw [Bool.and_eq_true, decide_eq_true_eq, decide_eq_true_eq] at h
  unfold Listed
  rw [Table.get?_eq_some, ← h.1, ← h.2]
  exact hmem

/-- The list with the name in the project is a row with it. -/
theorem Listed.isNamed (h : db.Listed pk name) :
    (pk, { name := name, project := db.project }) ∈ db.entityLists.rows ∧
      db.isNamed name (pk, { name := name, project := db.project }) = true := by
  refine ⟨Table.get?_eq_some.mp h, ?_⟩
  simp [FormLinks.isNamed]

/-- One list has the name in the project, and it is linked. -/
def OnlyListed (db : FormLinks) (pk : Nat) (name : String) : Prop :=
  db.Listed pk name ∧ ∀ other, db.Listed other name → other = pk

/-- The look-up of a list by its name. -/
theorem onlyListed_of_objectsGet {item : Nat × EntityList}
    (h : objectsGet db.entityLists.rows (db.isNamed name) = .ok item) :
    db.OnlyListed item.1 name := by
  obtain ⟨⟨hmem, hnamed⟩, honly⟩ := eq_of_objectsGet h
  refine ⟨listed_of_isNamed hmem hnamed, fun other hother => ?_⟩
  obtain ⟨hrow, hrowNamed⟩ := hother.isNamed
  exact congrArg Prod.fst (honly _ hrow hrowNamed)

/-- The look-up of a list that is not there. -/
theorem not_listed_of_objectsGet
    (h : objectsGet db.entityLists.rows (db.isNamed name) = .error .doesNotExist) (pk : Nat) :
    ¬ db.Listed pk name :=
  fun hlisted => not_of_objectsGet h _ hlisted.isNamed.1 hlisted.isNamed.2

/-- The lists that were there stay, and the others have one of the names in the project of the
form. -/
structure ListsGrow (db : FormLinks) (names : List String) (db' : FormLinks) : Prop where
  project : db'.project = db.project
  kept : ∀ pk entityList, db.entityLists.get? pk = some entityList →
    db'.entityLists.get? pk = some entityList
  only : ∀ pk entityList, db'.entityLists.get? pk = some entityList →
    db.entityLists.get? pk = some entityList ∨
      (entityList.project = db.project ∧ entityList.name ∈ names)

theorem ListsGrow.refl (db : FormLinks) (names : List String) : ListsGrow db names db :=
  ⟨rfl, fun _ _ h => h, fun _ _ h => Or.inl h⟩

/-- A list with the name stays one. -/
theorem ListsGrow.listed {names : List String} (h : ListsGrow db names db')
    (hlisted : db.Listed pk name) : db'.Listed pk name := by
  unfold Listed
  rw [h.project]
  exact h.kept pk _ hlisted

/-- A list with another name was there. -/
theorem ListsGrow.listed_of_notMem {names : List String} (h : ListsGrow db names db')
    (hlisted : db'.Listed pk name) (hname : name ∉ names) : db.Listed pk name := by
  unfold Listed at hlisted ⊢
  rw [h.project] at hlisted
  cases h.only pk _ hlisted with
  | inl hold => exact hold
  | inr hnew => exact absurd hnew.2 hname

/-- `get_or_create` of an entity list. -/
theorem getOrCreateEntityList_spec (h : db.getOrCreateEntityList name = .ok (db', pk)) :
    ListsGrow db [name] db' ∧ db'.registrationForms = db.registrationForms ∧
      db'.followUpForms = db.followUpForms ∧ db'.OnlyListed pk name := by
  unfold getOrCreateEntityList at h
  split at h
  · rename_i item hitem
    have heq := Except.ok.inj h
    rw [Prod.mk.injEq] at heq
    obtain ⟨rfl, rfl⟩ := heq
    exact ⟨.refl db [name], rfl, rfl, onlyListed_of_objectsGet hitem⟩
  · cases h
  · rename_i hmissing
    split at h
    · cases h
    · have heq := Except.ok.inj h
      rw [Prod.mk.injEq] at heq
      obtain ⟨rfl, rfl⟩ := heq
      have hget : ∀ pk, (db.entityLists.create { name := name, project := db.project }).get? pk =
          if pk = db.entityLists.nextPk then some { name := name, project := db.project }
          else db.entityLists.get? pk :=
        Table.get?_create _ _
      have hnew : ∀ pk entityList, db.entityLists.get? pk = some entityList →
          pk ≠ db.entityLists.nextPk := by
        intro pk entityList hold heq
        have hlt := db.entityLists.pk_lt pk (List.mem_map_of_mem (Table.get?_eq_some.mp hold))
        exact Nat.lt_irrefl _ (heq ▸ hlt)
      refine ⟨⟨rfl, fun pk entityList hold => ?_, fun pk entityList hafter => ?_⟩, rfl, rfl,
        ?_, fun other hother => ?_⟩
      · show (db.entityLists.create _).get? pk = _
        rw [hget, if_neg (hnew pk entityList hold)]
        exact hold
      · change (db.entityLists.create _).get? pk = _ at hafter
        rw [hget] at hafter
        split at hafter
        · obtain rfl := Option.some_inj.mp hafter
          exact Or.inr ⟨rfl, List.mem_singleton_self _⟩
        · exact Or.inl hafter
      · show (db.entityLists.create _).get? _ = _
        rw [hget, if_pos rfl]
      · by_contra hne
        change (db.entityLists.create _).get? other = _ at hother
        rw [hget, if_neg hne] at hother
        exact not_listed_of_objectsGet hmissing other hother

/-! ### The links of the registered datasets -/

/-- What is left after the names are registered: each has one list in the project, with an active
link, and the other links are as they were. -/
structure Registered (db : FormLinks) (names : List String) (db' : FormLinks) : Prop where
  lists : ListsGrow db names db'
  followUpForms : db'.followUpForms = db.followUpForms
  linked : ∀ name ∈ names, ∃ pk, db'.OnlyListed pk name ∧
    Dict.get? db'.registrationForms pk = some true
  links : ∀ pk, Dict.get? db'.registrationForms pk = some true →
    Dict.get? db.registrationForms pk = some true ∨ ∃ name ∈ names, db'.Listed pk name
  keptLinks : ∀ pk, Dict.get? db.registrationForms pk = some true →
    Dict.get? db'.registrationForms pk = some true

/-- One dataset is registered. -/
theorem registerDataset_spec {names : List String} {dataset : Option String}
    {s : FormLinks × List String} (h : registerDataset (db, names) dataset = .ok s) :
    ∃ name, dataset = some name ∧ s.2 = names ++ [name] ∧ Registered db [name] s.1 := by
  unfold registerDataset at h
  cases dataset with
  | none => cases h
  | some name =>
      obtain ⟨⟨mid, pk⟩, hmid, h⟩ := bind_eq_ok.mp h
      obtain rfl := pure_eq_ok.mp h
      obtain ⟨hlists, hregistration, hfollowUp, honly⟩ := getOrCreateEntityList_spec hmid
      have hget : ∀ other, Dict.get? (Dict.insert mid.registrationForms pk true) other =
          if other = pk then some true else Dict.get? db.registrationForms other := by
        intro other
        rw [Dict.get?_insert, hregistration]
      refine ⟨name, rfl, rfl, ⟨hlists.project, hlists.kept, hlists.only⟩, hfollowUp, ?_, ?_, ?_⟩
      · rw [List.forall_mem_singleton]
        refine ⟨pk, honly, ?_⟩
        show Dict.get? (Dict.insert mid.registrationForms pk true) pk = _
        rw [hget, if_pos rfl]
      · intro other hother
        change Dict.get? (Dict.insert mid.registrationForms pk true) other = _ at hother
        rw [hget] at hother
        split at hother
        · rename_i heq
          exact Or.inr ⟨name, List.mem_singleton_self _, heq ▸ honly.1⟩
        · exact Or.inl hother
      · intro other hother
        show Dict.get? (Dict.insert mid.registrationForms pk true) other = _
        rw [hget]
        split
        · rfl
        · exact hother

/-- One name, and then others. -/
theorem Registered.cons {names : List String} (hfirst : Registered db [name] mid)
    (hrest : Registered mid names db') : Registered db (name :: names) db' where
  lists := by
    refine ⟨hrest.lists.project.trans hfirst.lists.project, ?_, ?_⟩
    · exact fun pk entityList hold =>
        hrest.lists.kept pk entityList (hfirst.lists.kept pk entityList hold)
    · intro pk entityList hafter
      cases hrest.lists.only pk entityList hafter with
      | inl hmid =>
          cases hfirst.lists.only pk entityList hmid with
          | inl hold => exact Or.inl hold
          | inr hnew =>
              rw [List.mem_singleton.mp hnew.2]
              exact Or.inr ⟨hnew.1, List.mem_cons_self⟩
      | inr hnew =>
          exact Or.inr ⟨hnew.1.trans hfirst.lists.project, List.mem_cons_of_mem _ hnew.2⟩
  followUpForms := hrest.followUpForms.trans hfirst.followUpForms
  linked := by
    intro other hother
    by_cases hmem : other ∈ names
    · exact hrest.linked other hmem
    · -- The list of the first name is still the only one.
      have heq : other = name := by
        cases List.mem_cons.mp hother with
        | inl heq => exact heq
        | inr hrest => exact absurd hrest hmem
      obtain ⟨pk, ⟨hlisted, honly⟩, hlink⟩ :=
        hfirst.linked other (List.mem_singleton.mpr heq)
      refine ⟨pk, ⟨hrest.lists.listed hlisted, fun pk' hpk' => ?_⟩, hrest.keptLinks pk hlink⟩
      exact honly pk' (hrest.lists.listed_of_notMem hpk' hmem)
  links := by
    intro pk hafter
    cases hrest.links pk hafter with
    | inl hmid =>
        cases hfirst.links pk hmid with
        | inl hold => exact Or.inl hold
        | inr hnew =>
            obtain ⟨other, hother, hlisted⟩ := hnew
            rw [List.mem_singleton.mp hother] at hlisted
            exact Or.inr ⟨name, List.mem_cons_self, hrest.lists.listed hlisted⟩
    | inr hnew =>
        obtain ⟨other, hother, hlisted⟩ := hnew
        exact Or.inr ⟨other, List.mem_cons_of_mem _ hother, hlisted⟩
  keptLinks pk hold := hrest.keptLinks pk (hfirst.keptLinks pk hold)

/-- Several datasets are registered. -/
theorem foldlM_registerDataset_spec {datasets : List (Option String)} :
    ∀ {db : FormLinks} {before : List String} {s : FormLinks × List String},
      datasets.foldlM registerDataset (db, before) = .ok s →
        ∃ names, datasets = names.map some ∧ s.2 = before ++ names ∧ Registered db names s.1 := by
  induction datasets with
  | nil =>
      intro db before s h
      obtain rfl := pure_eq_ok.mp h
      refine ⟨[], rfl, (List.append_nil before).symm, .refl db [], rfl, ?_, ?_, ?_⟩
      · exact fun name hname => absurd hname List.not_mem_nil
      · exact fun pk hlink => Or.inl hlink
      · exact fun pk hlink => hlink
  | cons dataset rest ih =>
      intro db before s h
      rw [List.foldlM_cons] at h
      obtain ⟨⟨mid, midNames⟩, hfirst, hrest⟩ := bind_eq_ok.mp h
      obtain ⟨name, rfl, hnames, hregistered⟩ := registerDataset_spec hfirst
      obtain ⟨names, rfl, hafter, hothers⟩ := ih hrest
      refine ⟨name :: names, rfl, ?_, hregistered.cons hothers⟩
      rw [hafter, show midNames = before ++ [name] from hnames, List.append_assoc]
      rfl

/-! ### The links of the itemsets -/

/-- What is left after the itemsets are linked: those with a list in the project are active, and
the other links are as they were. -/
structure LinkedItemsets (db : FormLinks) (names active : List String) (db' : FormLinks) :
    Prop where
  rows : db'.project = db.project ∧ db'.entityLists = db.entityLists ∧
    db'.registrationForms = db.registrationForms
  mem_active : ∀ name, name ∈ active ↔ name ∈ names ∧ ∃ pk, db.Listed pk name
  linked : ∀ name ∈ active, ∃ pk, db.OnlyListed pk name ∧
    Dict.get? db'.followUpForms pk = some true
  links : ∀ pk, Dict.get? db'.followUpForms pk = some true →
    Dict.get? db.followUpForms pk = some true ∨ ∃ name ∈ active, db.Listed pk name
  keptLinks : ∀ pk, Dict.get? db.followUpForms pk = some true →
    Dict.get? db'.followUpForms pk = some true

/-- The lists with a name are those of a form with the same rows. -/
theorem listed_congr (hrows : mid.project = db.project ∧ mid.entityLists = db.entityLists)
    (pk : Nat) (name : String) : mid.Listed pk name ↔ db.Listed pk name := by
  unfold Listed
  rw [hrows.1, hrows.2]

theorem onlyListed_congr (hrows : mid.project = db.project ∧ mid.entityLists = db.entityLists)
    (pk : Nat) (name : String) : mid.OnlyListed pk name ↔ db.OnlyListed pk name := by
  unfold OnlyListed
  simp only [listed_congr hrows]

/-- One itemset is linked, if it has a list. -/
theorem linkItemset_spec {before : List String} {s : FormLinks × List String}
    (h : linkItemset (db, before) name = .ok s) :
    ∃ active, s.2 = before ++ active ∧ LinkedItemsets db [name] active s.1 := by
  unfold linkItemset at h
  split at h
  · rename_i item hitem
    obtain rfl := Except.ok.inj h
    have honly := onlyListed_of_objectsGet hitem
    have hget : ∀ other, Dict.get? (Dict.insert db.followUpForms item.1 true) other =
        if other = item.1 then some true else Dict.get? db.followUpForms other :=
      fun other => Dict.get?_insert _ _ other true
    refine ⟨[name], rfl, ⟨rfl, rfl, rfl⟩, fun other => ?_, ?_, fun pk hpk => ?_, fun pk hpk => ?_⟩
    · constructor
      · intro hother
        rw [List.mem_singleton.mp hother]
        exact ⟨List.mem_singleton_self _, item.1, honly.1⟩
      · exact And.left
    · rw [List.forall_mem_singleton]
      refine ⟨item.1, honly, ?_⟩
      show Dict.get? (Dict.insert db.followUpForms item.1 true) item.1 = _
      rw [hget, if_pos rfl]
    · change Dict.get? (Dict.insert db.followUpForms item.1 true) pk = _ at hpk
      rw [hget] at hpk
      split at hpk
      · rename_i heq
        exact Or.inr ⟨name, List.mem_singleton_self _, heq ▸ honly.1⟩
      · exact Or.inl hpk
    · show Dict.get? (Dict.insert db.followUpForms item.1 true) pk = _
      rw [hget]
      split
      · rfl
      · exact hpk
  · rename_i hmissing
    obtain rfl := Except.ok.inj h
    refine ⟨[], (List.append_nil before).symm, ⟨rfl, rfl, rfl⟩, fun other => ?_, ?_,
      fun pk hpk => Or.inl hpk, fun pk hpk => hpk⟩
    · refine iff_of_false List.not_mem_nil fun hother => ?_
      obtain ⟨hmem, pk, hlisted⟩ := hother
      rw [List.mem_singleton.mp hmem] at hlisted
      exact not_listed_of_objectsGet hmissing pk hlisted
    · exact fun other hother => absurd hother List.not_mem_nil
  · cases h

/-- One itemset, and then others. -/
theorem LinkedItemsets.cons {names active rest : List String}
    (hfirst : LinkedItemsets db [name] active mid) (hrest : LinkedItemsets mid names rest db') :
    LinkedItemsets db (name :: names) (active ++ rest) db' where
  rows := ⟨hrest.rows.1.trans hfirst.rows.1, hrest.rows.2.1.trans hfirst.rows.2.1,
    hrest.rows.2.2.trans hfirst.rows.2.2⟩
  mem_active other := by
    have hmid := listed_congr ⟨hfirst.rows.1, hfirst.rows.2.1⟩
    rw [List.mem_append, hfirst.mem_active, hrest.mem_active, List.mem_singleton, List.mem_cons,
      or_and_right]
    simp only [hmid]
  linked other hother := by
    cases List.mem_append.mp hother with
    | inl hmem =>
        obtain ⟨pk, honly, hlink⟩ := hfirst.linked other hmem
        exact ⟨pk, honly, hrest.keptLinks pk hlink⟩
    | inr hmem =>
        obtain ⟨pk, honly, hlink⟩ := hrest.linked other hmem
        exact ⟨pk, (onlyListed_congr ⟨hfirst.rows.1, hfirst.rows.2.1⟩ pk other).mp honly, hlink⟩
  links pk hafter := by
    cases hrest.links pk hafter with
    | inl hmid =>
        refine (hfirst.links pk hmid).imp id fun hnew => ?_
        obtain ⟨other, hother, hlisted⟩ := hnew
        exact ⟨other, List.mem_append_left _ hother, hlisted⟩
    | inr hnew =>
        obtain ⟨other, hother, hlisted⟩ := hnew
        refine Or.inr ⟨other, List.mem_append_right _ hother, ?_⟩
        exact (listed_congr ⟨hfirst.rows.1, hfirst.rows.2.1⟩ pk other).mp hlisted
  keptLinks pk hold := hrest.keptLinks pk (hfirst.keptLinks pk hold)

/-- Several itemsets are linked. -/
theorem foldlM_linkItemset_spec {names : List String} :
    ∀ {db : FormLinks} {before : List String} {s : FormLinks × List String},
      names.foldlM linkItemset (db, before) = .ok s →
        ∃ active, s.2 = before ++ active ∧ LinkedItemsets db names active s.1 := by
  induction names with
  | nil =>
      intro db before s h
      obtain rfl := pure_eq_ok.mp h
      refine ⟨[], (List.append_nil before).symm, ⟨rfl, rfl, rfl⟩, fun name => ?_, ?_,
        fun pk hlink => Or.inl hlink, fun pk hlink => hlink⟩
      · exact iff_of_false List.not_mem_nil fun hname => absurd hname.1 List.not_mem_nil
      · exact fun name hname => absurd hname List.not_mem_nil
  | cons name rest ih =>
      intro db before s h
      rw [List.foldlM_cons] at h
      obtain ⟨⟨mid, midNames⟩, hfirst, hrest⟩ := bind_eq_ok.mp h
      obtain ⟨active, hactive, hlinked⟩ := linkItemset_spec hfirst
      obtain ⟨others, hafter, hothers⟩ := ih hrest
      refine ⟨active ++ others, ?_, hlinked.cons hothers⟩
      rw [hafter, show midNames = before ++ active from hactive, List.append_assoc]

/-! ### A publication -/

/-- The links that are still active after the others were deactivated. -/
theorem get?_deactivated {links : List (Nat × Bool)} {keep : Nat → Bool} {pk : Nat} :
    Dict.get? (links.map fun link => (link.1, link.2 && keep link.1)) pk = some true ↔
      Dict.get? links pk = some true ∧ keep pk = true := by
  rw [Dict.get?_mapValues links (fun key active => active && keep key) pk]
  cases Dict.get? links pk with
  | none => simp
  | some active => simp

/-- A list has one of the names. -/
theorem nameIn_iff {names : List String} :
    db.nameIn names pk = true ↔
      ∃ entityList, db.entityLists.get? pk = some entityList ∧ entityList.name ∈ names := by
  unfold nameIn
  rw [Option.any_eq_true]
  simp only [List.contains_iff_mem]

/-- After a publication, the active links are those of the JSON and the project. -/
def LinksFollow (definition : FormDefinition) (db : FormLinks) : Prop :=
  (∀ pk, Dict.get? db.registrationForms pk = some true ↔
    ∃ name, db.Listed pk name ∧ Declares definition.children name) ∧
  (∀ name, Declares definition.children name → ∃ pk, db.Listed pk name) ∧
  ∀ pk, Dict.get? db.followUpForms pk = some true ↔
    ∃ name, db.Listed pk name ∧ SelectsItemset definition.children name

/-- What a publication needs. Each dataset that is declared is the one of a first entity, in a form
with an entity definition; an active link to a list with a name that is declared is to one in the
project; and so is an active link to a list with the name of an itemset, where the project has a
list with the name or gets one. -/
structure NoLinkElsewhere (db : FormLinks) (definition : FormDefinition) : Prop where
  first : ∀ name, Declares definition.children name →
    hasEntityDefinition definition = true ∧ DeclaresFirst definition.children name
  registrations : ∀ pk entityList, Dict.get? db.registrationForms pk = some true →
    db.entityLists.get? pk = some entityList → Declares definition.children entityList.name →
      entityList.project = db.project
  followUps : ∀ pk entityList, Dict.get? db.followUpForms pk = some true →
    db.entityLists.get? pk = some entityList →
      SelectsItemset definition.children entityList.name →
        (∃ other, db.Listed other entityList.name) ∨
          Declares definition.children entityList.name → entityList.project = db.project

/-- What the handlers leave of the links. `datasets` are registered, and `active` linked. -/
structure PublishedLinks (db : FormLinks) (definition : FormDefinition) (db' : FormLinks) : Prop where
  lists : ∃ names, ListsGrow db names db' ∧ ∀ name ∈ names,
    hasEntityDefinition definition = true ∧ DeclaresFirst definition.children name
  registered : hasEntityDefinition definition = true → ∀ name,
    DeclaresFirst definition.children name → ∃ pk, db'.OnlyListed pk name ∧
      Dict.get? db'.registrationForms pk = some true
  registrations : ∀ pk, Dict.get? db'.registrationForms pk = some true ↔
    hasEntityDefinition definition = true ∧ ∃ entityList,
      db'.entityLists.get? pk = some entityList ∧
      DeclaresFirst definition.children entityList.name ∧
      (Dict.get? db.registrationForms pk = some true ∨ entityList.project = db.project)
  followUps : ∀ pk, Dict.get? db'.followUpForms pk = some true ↔
    ∃ entityList, db'.entityLists.get? pk = some entityList ∧
      SelectsItemset definition.children entityList.name ∧
      (∃ other, db'.Listed other entityList.name) ∧
      (Dict.get? db.followUpForms pk = some true ∨ entityList.project = db.project)

/-- The links after `create_registration_form` of a form with an entity definition. -/
theorem createRegistrationForm_spec {definition : FormDefinition}
    (hdefinition : hasEntityDefinition definition = true)
    (h : db.createRegistrationForm definition = .ok db') :
    ∃ names, ListsGrow db names db' ∧ db'.followUpForms = db.followUpForms ∧
      (∀ name, name ∈ names ↔ DeclaresFirst definition.children name) ∧
      (∀ name ∈ names, ∃ pk, db'.OnlyListed pk name ∧
        Dict.get? db'.registrationForms pk = some true) ∧
      ∀ pk, Dict.get? db'.registrationForms pk = some true ↔
        ∃ entityList, db'.entityLists.get? pk = some entityList ∧ entityList.name ∈ names ∧
          (Dict.get? db.registrationForms pk = some true ∨ entityList.project = db.project) := by
  unfold createRegistrationForm at h
  rw [hdefinition] at h
  obtain ⟨⟨mid, datasets⟩, hregister, h⟩ := bind_eq_ok.mp h
  obtain rfl := pure_eq_ok.mp h
  rw [register_eq] at hregister
  obtain ⟨names, hdatasets, hnames, hmid⟩ := foldlM_registerDataset_spec hregister
  rw [List.nil_append] at hnames
  obtain rfl : datasets = names := hnames
  have hactive : ∀ pk, Dict.get? (mid.registrationForms.map fun link =>
      (link.1, link.2 && mid.nameIn datasets link.1)) pk = some true ↔
        Dict.get? mid.registrationForms pk = some true ∧ ∃ entityList,
          mid.entityLists.get? pk = some entityList ∧ entityList.name ∈ datasets := by
    intro pk
    rw [get?_deactivated, nameIn_iff]
  refine ⟨datasets, ⟨hmid.lists.project, hmid.lists.kept, hmid.lists.only⟩, hmid.followUpForms,
    fun name => ?_, fun name hname => ?_, fun pk => ?_⟩
  · rw [← mem_registered_iff, hdatasets, List.mem_map]
    simp only [Option.some_inj, exists_eq_right]
  · obtain ⟨pk, honly, hlink⟩ := hmid.linked name hname
    exact ⟨pk, honly, (hactive pk).mpr ⟨hlink, _, honly.1, hname⟩⟩
  · refine (hactive pk).trans ?_
    constructor
    · intro hafter
      obtain ⟨hlink, entityList, hget, hname⟩ := hafter
      refine ⟨entityList, hget, hname, (hmid.links pk hlink).imp id fun hnew => ?_⟩
      obtain ⟨name, -, hlisted⟩ := hnew
      obtain rfl := Option.some_inj.mp (hget.symm.trans hlisted)
      exact hmid.lists.project
    · intro hafter
      obtain ⟨entityList, hget, hname, hcases⟩ := hafter
      refine ⟨?_, entityList, hget, hname⟩
      cases hcases with
      | inl hold => exact hmid.keptLinks pk hold
      | inr hproject =>
          -- The list with the name in the project is the one that was linked.
          obtain ⟨other, honly, hlink⟩ := hmid.linked entityList.name hname
          have hlisted : mid.Listed pk entityList.name := by
            unfold Listed
            rw [hmid.lists.project, ← hproject]
            exact hget
          rw [honly.2 pk hlisted]
          exact hlink

/-- The links after `create_follow_up_form`. -/
theorem createFollowUpForm_spec {definition : FormDefinition}
    (h : db.createFollowUpForm definition = .ok db') :
    (db'.project = db.project ∧ db'.entityLists = db.entityLists ∧
      db'.registrationForms = db.registrationForms) ∧
      ∀ pk, Dict.get? db'.followUpForms pk = some true ↔
        ∃ entityList, db.entityLists.get? pk = some entityList ∧
          SelectsItemset definition.children entityList.name ∧
          (∃ other, db.Listed other entityList.name) ∧
          (Dict.get? db.followUpForms pk = some true ∨ entityList.project = db.project) := by
  unfold createFollowUpForm at h
  obtain ⟨⟨mid, names⟩, hlink, h⟩ := bind_eq_ok.mp h
  obtain rfl := pure_eq_ok.mp h
  rw [linkNodes_eq] at hlink
  obtain ⟨active, hactive, hmid⟩ := foldlM_linkItemset_spec hlink
  rw [List.nil_append] at hactive
  obtain rfl : names = active := hactive
  refine ⟨hmid.rows, fun pk => ?_⟩
  refine get?_deactivated.trans ?_
  rw [nameIn_iff, hmid.rows.2.1]
  have hname : ∀ name, name ∈ names ↔ SelectsItemset definition.children name ∧
      ∃ other, db.Listed other name := by
    intro name
    rw [hmid.mem_active, mem_itemsets_iff]
  constructor
  · intro hafter
    obtain ⟨hlink, entityList, hget, hmem⟩ := hafter
    obtain ⟨hselects, hother⟩ := (hname _).mp hmem
    refine ⟨entityList, hget, hselects, hother, (hmid.links pk hlink).imp id fun hnew => ?_⟩
    obtain ⟨name, -, hlisted⟩ := hnew
    obtain rfl := Option.some_inj.mp (hget.symm.trans hlisted)
    rfl
  · intro hafter
    obtain ⟨entityList, hget, hselects, hother, hcases⟩ := hafter
    have hmem := (hname _).mpr ⟨hselects, hother⟩
    refine ⟨?_, entityList, hget, hmem⟩
    cases hcases with
    | inl hold => exact hmid.keptLinks pk hold
    | inr hproject =>
        obtain ⟨other, honly, hlink⟩ := hmid.linked entityList.name hmem
        have hlisted : db.Listed pk entityList.name := by
          unfold Listed
          rw [← hproject]
          exact hget
        rw [honly.2 pk hlisted]
        exact hlink

/-- The handlers one after the other. -/
theorem publish_spec {definition : FormDefinition} (h : db.publish definition = .ok db') :
    PublishedLinks db definition db' := by
  unfold publish at h
  obtain ⟨registered, hregistered, h⟩ := bind_eq_ok.mp h
  obtain ⟨linked, hlinked, h⟩ := bind_eq_ok.mp h
  obtain rfl := pure_eq_ok.mp h
  obtain ⟨⟨hproject, hlists, hforms⟩, hfollowUps⟩ := createFollowUpForm_spec hlinked
  unfold disableRegistrationForm
  cases hdefinition : hasEntityDefinition definition with
  | true =>
      obtain ⟨names, hgrow, hfollow, hnames, hlinks, hregistrations⟩ :=
        createRegistrationForm_spec hdefinition hregistered
      have hlisted := listed_congr ⟨hproject, hlists⟩
      refine ⟨⟨names, ⟨hproject.trans hgrow.project, ?_, ?_⟩, fun name hname => ?_⟩, ?_, ?_, ?_⟩
      · intro pk entityList hget
        show linked.entityLists.get? pk = _
        rw [hlists]
        exact hgrow.kept pk entityList hget
      · intro pk entityList hget
        change linked.entityLists.get? pk = _ at hget
        rw [hlists] at hget
        exact hgrow.only pk entityList hget
      · exact ⟨hdefinition, (hnames name).mp hname⟩
      · intro _ name hfirst
        obtain ⟨pk, honly, hlink⟩ := hlinks name ((hnames name).mpr hfirst)
        refine ⟨pk, (onlyListed_congr ⟨hproject, hlists⟩ pk name).mpr honly, ?_⟩
        show Dict.get? linked.registrationForms pk = some true
        rw [hforms]
        exact hlink
      · intro pk
        show Dict.get? linked.registrationForms pk = some true ↔ _
        rw [hforms, hregistrations, and_iff_right hdefinition]
        show _ ↔ ∃ entityList, linked.entityLists.get? pk = some entityList ∧ _
        rw [hlists]
        simp only [hnames]
      · intro pk
        show Dict.get? linked.followUpForms pk = some true ↔
          ∃ entityList, linked.entityLists.get? pk = some entityList ∧ _ ∧
            (∃ other, linked.Listed other entityList.name) ∧ _
        rw [hfollowUps, hlists, hfollow, hgrow.project]
        simp only [hlisted]
  | false =>
      have hsame : registered = db := by
        unfold createRegistrationForm at hregistered
        rw [hdefinition] at hregistered
        exact (Except.ok.inj hregistered).symm
      rw [hsame] at hproject hlists hfollowUps
      have hlisted := listed_congr ⟨hproject, hlists⟩
      have hnone : ∀ pk, Dict.get? (linked.registrationForms.map fun link => (link.1, false)) pk ≠
          some true := by
        intro pk
        rw [Dict.get?_mapValues linked.registrationForms (fun _ _ => false) pk]
        cases Dict.get? linked.registrationForms pk with
        | none => simp
        | some active => simp
      refine ⟨⟨[], ⟨hproject, ?_, ?_⟩, fun name hname => absurd hname List.not_mem_nil⟩, ?_, ?_, ?_⟩
      · intro pk entityList hget
        show linked.entityLists.get? pk = _
        rw [hlists]
        exact hget
      · intro pk entityList hget
        change linked.entityLists.get? pk = _ at hget
        rw [hlists] at hget
        exact Or.inl hget
      · exact fun htrue => absurd (hdefinition.symm.trans htrue) (by decide)
      · intro pk
        refine iff_of_false (hnone pk) fun htrue => ?_
        exact absurd (hdefinition.symm.trans htrue.1) (by decide)
      · intro pk
        show Dict.get? linked.followUpForms pk = some true ↔
          ∃ entityList, linked.entityLists.get? pk = some entityList ∧ _ ∧
            (∃ other, linked.Listed other entityList.name) ∧ _
        rw [hfollowUps, hlists]
        simp only [hlisted]

/-- A list is in the project after the publication, or an old one. -/
theorem PublishedLinks.only {definition : FormDefinition} (h : PublishedLinks db definition db')
    {entityList : EntityList} (hget : db'.entityLists.get? pk = some entityList) :
    db.entityLists.get? pk = some entityList ∨
      (entityList.project = db.project ∧ Declares definition.children entityList.name) := by
  obtain ⟨names, hgrow, hnames⟩ := h.lists
  exact (hgrow.only pk entityList hget).imp id
    fun hnew => ⟨hnew.1, (hnames entityList.name hnew.2).2.declares⟩

/-- A row is the list with its name in the project. -/
theorem PublishedLinks.listed {definition : FormDefinition} (h : PublishedLinks db definition db')
    {entityList : EntityList} (hget : db'.entityLists.get? pk = some entityList)
    (hproject : entityList.project = db.project) : db'.Listed pk entityList.name := by
  obtain ⟨names, hgrow, -⟩ := h.lists
  unfold Listed
  rw [hgrow.project, ← hproject]
  exact hget

/-- The links follow the form only if none was elsewhere. -/
theorem PublishedLinks.noLinkElsewhere {definition : FormDefinition}
    (h : PublishedLinks db definition db') (hfollow : LinksFollow definition db') :
    NoLinkElsewhere db definition := by
  obtain ⟨hregistrations, hdeclared, hfollowUps⟩ := hfollow
  obtain ⟨names, hgrow, -⟩ := h.lists
  have hfirst : ∀ name, Declares definition.children name →
      hasEntityDefinition definition = true ∧ DeclaresFirst definition.children name := by
    intro name hname
    obtain ⟨pk, hlisted⟩ := hdeclared name hname
    have hlink := (hregistrations pk).mpr ⟨name, hlisted, hname⟩
    obtain ⟨hdefinition, entityList, hget, hentity, -⟩ := (h.registrations pk).mp hlink
    obtain rfl := Option.some_inj.mp (hget.symm.trans hlisted)
    exact ⟨hdefinition, hentity⟩
  -- A list that an active link is to has the project of the form.
  have hproject : ∀ {pk name entityList}, db.entityLists.get? pk = some entityList →
      db'.Listed pk name → entityList.project = db.project := by
    intro pk name entityList hget hlisted
    obtain rfl := Option.some_inj.mp ((hgrow.kept pk entityList hget).symm.trans hlisted)
    exact hgrow.project
  refine ⟨hfirst, fun pk entityList hlink hget hname => ?_,
    fun pk entityList hlink hget hname hother => ?_⟩
  · obtain ⟨hdefinition, hentity⟩ := hfirst entityList.name hname
    have hafter := (h.registrations pk).mpr
      ⟨hdefinition, entityList, hgrow.kept pk entityList hget, hentity, Or.inl hlink⟩
    obtain ⟨name, hlisted, -⟩ := (hregistrations pk).mp hafter
    exact hproject hget hlisted
  · have hother' : ∃ other, db'.Listed other entityList.name := by
      cases hother with
      | inl hold =>
          obtain ⟨other, hlisted⟩ := hold
          exact ⟨other, hgrow.listed hlisted⟩
      | inr hdeclares => exact hdeclared entityList.name hdeclares
    have hafter := (h.followUps pk).mpr
      ⟨entityList, hgrow.kept pk entityList hget, hname, hother', Or.inl hlink⟩
    obtain ⟨name, hlisted, -⟩ := (hfollowUps pk).mp hafter
    exact hproject hget hlisted

/-- The links follow the form if none was elsewhere. -/
theorem PublishedLinks.linksFollow {definition : FormDefinition}
    (h : PublishedLinks db definition db') (hlinks : NoLinkElsewhere db definition) :
    LinksFollow definition db' := by
  have hsame : db'.project = db.project := by
    obtain ⟨names, hgrow, -⟩ := h.lists
    exact hgrow.project
  refine ⟨fun pk => ⟨fun hlink => ?_, fun hlisted => ?_⟩, fun name hname => ?_,
    fun pk => ⟨fun hlink => ?_, fun hlisted => ?_⟩⟩
  · obtain ⟨-, entityList, hget, hfirst, hcases⟩ := (h.registrations pk).mp hlink
    refine ⟨entityList.name, h.listed hget ?_, hfirst.declares⟩
    cases h.only hget with
    | inl hold =>
        exact hcases.elim (fun hlink => hlinks.registrations pk _ hlink hold hfirst.declares) id
    | inr hnew => exact hnew.1
  · obtain ⟨name, hlisted, hname⟩ := hlisted
    obtain ⟨hdefinition, hfirst⟩ := hlinks.first name hname
    exact (h.registrations pk).mpr ⟨hdefinition, _, hlisted, hfirst, Or.inr hsame⟩
  · obtain ⟨hdefinition, hfirst⟩ := hlinks.first name hname
    obtain ⟨pk, honly, -⟩ := h.registered hdefinition name hfirst
    exact ⟨pk, honly.1⟩
  · obtain ⟨entityList, hget, hselects, hother, hcases⟩ := (h.followUps pk).mp hlink
    obtain ⟨other, hother⟩ := hother
    refine ⟨entityList.name, h.listed hget ?_, hselects⟩
    cases h.only hget with
    | inr hnew => exact hnew.1
    | inl hold =>
        refine hcases.elim (fun hlink => hlinks.followUps pk _ hlink hold hselects ?_) id
        -- The list with the name in the project was there, or it is a declared one.
        refine (h.only hother).imp (fun hthere => ⟨other, ?_⟩) fun hnew => hnew.2
        unfold Listed
        rw [← hsame]
        exact hthere
  · obtain ⟨name, hlisted, hname⟩ := hlisted
    exact (h.followUps pk).mpr ⟨_, hlisted, hname, ⟨pk, hlisted⟩, Or.inr hsame⟩

/-! ### Runs -/

/-- What happens to a form. `changeLists` is any change of the entity lists of the projects. -/
inductive LinkAction
  | publish (definition : FormDefinition)
  | move (project : Nat)
  | changeLists (entityLists : Table EntityList)

/-- The links to lists that are gone are deleted with them. -/
def linksToRows (entityLists : Table EntityList) (links : List (Nat × Bool)) : List (Nat × Bool) :=
  links.filter fun link => (entityLists.get? link.1).isSome

/-- A step. -/
def LinkStep (db : FormLinks) (action : LinkAction) (db' : FormLinks) : Prop :=
  match action with
  | .publish definition => db.publish definition = .ok db'
  | .move project => db' = { db with project := project }
  | .changeLists entityLists =>
      db' = { db with
        entityLists := entityLists
        registrationForms := linksToRows entityLists db.registrationForms
        followUpForms := linksToRows entityLists db.followUpForms }

/-- A publication leaves the links of its JSON. -/
def FollowsForm (_ : FormLinks) (action : LinkAction) (db' : FormLinks) : Prop :=
  match action with
  | .publish definition => LinksFollow definition db'
  | .move _ | .changeLists _ => True

/-- Before a publication, no link is elsewhere. -/
def PublishesAtHome (db : FormLinks) (action : LinkAction) (_ : FormLinks) : Prop :=
  match action with
  | .publish definition => NoLinkElsewhere db definition
  | .move _ | .changeLists _ => True

/-- The links are those of the current form after every publication of a run, if and only if none
is elsewhere before each. -/
theorem linksFollow_run_iff (db db' : FormLinks) (actions : List LinkAction) :
    Run (Guarded LinkStep FollowsForm) db actions db' ↔
      Run (Guarded LinkStep PublishesAtHome) db actions db' := by
  refine Run.guarded_congr (fun _ => True) trivial ?_ fun _ _ _ _ _ _ _ => trivial
  intro db action db' _ hstep _
  cases action with
  | publish definition =>
      have hspec := publish_spec (show db.publish definition = .ok db' from hstep)
      show LinksFollow definition db' ↔ NoLinkElsewhere db definition
      exact ⟨hspec.noLinkElsewhere, hspec.linksFollow⟩
  | move project => exact Iff.rfl
  | changeLists entityLists => exact Iff.rfl

/-- A form that registers trees. -/
def treeDefinition : FormDefinition where
  entityFeatures := ["create"]
  children := [.node "meta" "group" [] none
    [.node "entity" "entity" [("dataset", "trees")] none []]]

/-- The list of the first project, and the link to it. -/
def linkedOnce : FormLinks where
  project := 1
  entityLists := { rows := [(0, ⟨"trees", 1⟩)], nextPk := 1, pk_lt := by decide, nodup := by decide }
  registrationForms := [(0, true)]

/-- The lists of both projects, and the links to them. -/
def linkedTwice : FormLinks where
  project := 2
  entityLists :=
    { rows := [(0, ⟨"trees", 1⟩), (1, ⟨"trees", 2⟩)], nextPk := 2, pk_lt := by decide
      nodup := by decide }
  registrationForms := [(0, true), (1, true)]

/-- The form is published, moved to another project and published again. The link to the list of
the first project is still active. -/
theorem not_linksFollow_run :
    ¬ ∀ (db db' : FormLinks) (actions : List LinkAction),
      db.registrationForms = [] → db.followUpForms = [] → Run LinkStep db actions db' →
        Run (Guarded LinkStep FollowsForm) db actions db' := by
  intro hall
  have hfirst : LinkStep { project := 1 } (.publish treeDefinition) linkedOnce := rfl
  have hsecond : LinkStep { linkedOnce with project := 2 } (.publish treeDefinition) linkedTwice :=
    rfl
  have hrun : Run LinkStep { project := 1 }
      [.publish treeDefinition, .move 2, .publish treeDefinition] linkedTwice :=
    .cons hfirst (.cons rfl (.cons hsecond (.nil _)))
  cases hall _ _ _ rfl rfl hrun with
  | cons hfirst hrest =>
      cases hrest with
      | cons hmove hrest =>
          cases hrest with
          | cons hsecond hend =>
              cases hend with
              | nil =>
                  -- Both links are active, and the list of the first one is in project 1.
                  have hfollows : LinksFollow treeDefinition linkedTwice := hsecond.2
                  obtain ⟨name, hlisted, -⟩ := (hfollows.1 0).mp rfl
                  have hproject : some 1 = some 2 :=
                    congrArg (Option.map EntityList.project) hlisted
                  exact absurd hproject (by decide)

end FormLinks

end Onadata
