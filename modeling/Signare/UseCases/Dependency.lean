import Signare.UseCases.ReferentialIntegrity
import Signare.Storage.Keyed

/-!
# Which resources depend on which

A user and a slot belong to an application, a slot to an HSM module, an account to a user: a child
names its parent by primary key. The entries repeat this with internal resource ids. A database is
intact when both say the same, and it stays so when a resource is created with its entries or
deleted, without any children, with its own.
-/

namespace Signare

def ResourceKind.table : ResourceKind → Table
  | .account => .account
  | .application => .application
  | .hsmModule => .hsmModule
  | .hsmSlot => .hsmSlot
  | .user => .user
  | .admin => .admin

theorem ResourceKind.table_injective : Function.Injective ResourceKind.table := by
  intro k k' h
  cases k with
  | _ => cases k' with
    | _ => first | rfl | cases h

theorem ResourceKind.table_ne_entry (k : ResourceKind) : k.table ≠ .entry := by
  cases k with
  | _ => decide

/-- A resource by its kind and primary key. -/
abbrev ResourceRef := Σ k : ResourceKind, Key k.table

/-- A resource of some kind. -/
abbrev Resource := Σ k : ResourceKind, Row k.table

inductive Dependency
  | userOfApplication
  | accountOfUser
  | slotOfApplication
  | slotOfModule
  deriving DecidableEq

namespace Dependency

def childKind : Dependency → ResourceKind
  | .userOfApplication => .user
  | .accountOfUser => .account
  | .slotOfApplication => .hsmSlot
  | .slotOfModule => .hsmSlot

def parentKind : Dependency → ResourceKind
  | .userOfApplication => .application
  | .accountOfUser => .user
  | .slotOfApplication => .application
  | .slotOfModule => .hsmModule

abbrev child (d : Dependency) : Table := d.childKind.table

abbrev parent (d : Dependency) : Table := d.parentKind.table

def parentKey : (d : Dependency) → Row d.child → Key d.parent
  | .userOfApplication, row => (UserRow.key row).applicationId
  | .accountOfUser, row =>
    ApplicationStandardID.mk (AccountRow.key row).userId (AccountRow.key row).applicationId
  | .slotOfApplication, row => HSMSlotRow.applicationId row
  | .slotOfModule, row => HSMSlotRow.hsmModuleId row

def parentRef (d : Dependency) (row : Row d.child) : ResourceRef := ⟨d.parentKind, d.parentKey row⟩

/-- The entry of a child with its parent. -/
structure Joins (d : Dependency) (entry : EntryRow) (child : Row d.child) (parent : Row d.parent) :
    Prop where
  resourceId : entry.resourceId = identity d.child child
  resourceKind : entry.resourceKind = d.childKind
  parentResourceId : entry.parentResourceId = identity d.parent parent
  parentResourceKind : entry.parentResourceKind = d.parentKind

/-- The parent that a child names. -/
def Names (d : Dependency) (child : Row d.child) (parent : Row d.parent) : Prop :=
  keyOf d.parent parent = d.parentKey child

end Dependency

/-- A row that is the same to its children, to its parents and to the entries. -/
structure SameDependencies (k : ResourceKind) (row row' : Row k.table) : Prop where
  key : keyOf k.table row' = keyOf k.table row
  identity : identity k.table row' = identity k.table row
  parents : ∀ (d : Dependency) (child child' : Row d.child),
    (⟨d.childKind, child⟩ : Resource) = ⟨k, row⟩ → (⟨d.childKind, child'⟩ : Resource) = ⟨k, row'⟩ →
      d.parentKey child' = d.parentKey child

theorem SameDependencies.refl (k : ResourceKind) (row : Row k.table) :
    SameDependencies k row row where
  key := rfl
  identity := rfl
  parents d child child' h h' := by
    obtain ⟨-, heq⟩ := Sigma.mk.inj_iff.mp (h.trans h'.symm)
    rw [eq_of_heq heq]

theorem SameDependencies.names {d : Dependency} {child child' : Row d.child}
    {parent parent' : Row d.parent} (hchild : SameDependencies d.childKind child child')
    (hparent : SameDependencies d.parentKind parent parent') (h : d.Names child parent) :
    d.Names child' parent' :=
  calc keyOf d.parent parent' = keyOf d.parent parent := hparent.key
    _ = d.parentKey child := h
    _ = d.parentKey child' := (hchild.parents d child child' rfl rfl).symm

/-- Some resource names this one as its parent. -/
def Database.HasChildren (db : Database) (ref : ResourceRef) : Prop :=
  ∃ d : Dependency, ∃ child ∈ db d.child, d.parentRef child = ref

/-- Every entry is that of a living child with its living parent, and every child has its parent
and an entry with it. -/
structure Database.Intact (db : Database) : Prop where
  keyed : db.Keyed
  of_entry : ∀ entry ∈ db .entry, ∃ d : Dependency, ∃ child ∈ db d.child, ∃ parent ∈ db d.parent,
    d.Names child parent ∧ d.Joins entry child parent
  of_child : ∀ (d : Dependency), ∀ child ∈ db d.child, ∃ parent ∈ db d.parent,
    d.Names child parent ∧ ∃ entry ∈ db .entry, d.Joins entry child parent

theorem Database.intact_empty : Database.empty.Intact :=
  { keyed := fun _ => List.Pairwise.nil
    of_entry := fun _ h => nomatch h
    of_child := fun _ _ h => nomatch h }

namespace Database.Intact

variable {db db' : Database} {k : ResourceKind} {row : Row k.table}

theorem create (h : db.Intact) {entries : List (Row .entry)} (hkeyed : db'.Keyed)
    (hentry : db' .entry = db .entry ++ entries) (hrow : db' k.table = db k.table ++ [row])
    (hother : ∀ t, t ≠ .entry → t ≠ k.table → db' t = db t)
    (hentries : ∀ entry ∈ entries, ∃ d : Dependency, ∃ child : Row d.child,
      (⟨d.childKind, child⟩ : Resource) = ⟨k, row⟩ ∧ ∃ parent ∈ db d.parent,
        d.Names child parent ∧ d.Joins entry child parent)
    (hparents : ∀ (d : Dependency) (child : Row d.child),
      (⟨d.childKind, child⟩ : Resource) = ⟨k, row⟩ → ∃ parent ∈ db d.parent,
        d.Names child parent ∧ ∃ entry ∈ entries, d.Joins entry child parent) :
    db'.Intact := by
  have hkept (k' : ResourceKind) {row' : Row k'.table} (hmem : row' ∈ db k'.table) :
      row' ∈ db' k'.table := by
    by_cases hk : k' = k
    · subst hk
      rw [hrow]
      exact List.mem_append_left _ hmem
    · rw [hother _ k'.table_ne_entry fun ht => hk (ResourceKind.table_injective ht)]
      exact hmem
  have hchild {d : Dependency} {child : Row d.child}
      (heq : (⟨d.childKind, child⟩ : Resource) = ⟨k, row⟩) : child ∈ db' d.child := by
    obtain ⟨hkind, hheq⟩ := Sigma.mk.inj_iff.mp heq
    subst hkind
    rw [hrow, eq_of_heq hheq]
    exact List.mem_append_right _ (List.mem_singleton_self _)
  refine ⟨hkeyed, fun entry hmem => ?_, fun d child hmem => ?_⟩
  · rw [hentry, List.mem_append] at hmem
    cases hmem with
    | inl hold =>
      obtain ⟨d, child, hc, parent, hp, hnames, hjoins⟩ := h.of_entry entry hold
      exact ⟨d, child, hkept _ hc, parent, hkept _ hp, hnames, hjoins⟩
    | inr hnew =>
      obtain ⟨d, child, heq, parent, hp, hnames, hjoins⟩ := hentries entry hnew
      exact ⟨d, child, hchild heq, parent, hkept _ hp, hnames, hjoins⟩
  · by_cases hold : child ∈ db d.child
    · obtain ⟨parent, hp, hnames, entry, he, hjoins⟩ := h.of_child d child hold
      refine ⟨parent, hkept _ hp, hnames, entry, ?_, hjoins⟩
      rw [hentry]
      exact List.mem_append_left _ he
    · have heq : (⟨d.childKind, child⟩ : Resource) = ⟨k, row⟩ := by
        by_cases hk : d.childKind = k
        · subst hk
          rw [hrow, List.mem_append, List.mem_singleton] at hmem
          rw [hmem.resolve_left hold]
        · rw [hother _ d.childKind.table_ne_entry
            fun ht => hk (ResourceKind.table_injective ht)] at hmem
          exact absurd hmem hold
      obtain ⟨parent, hp, hnames, entry, he, hjoins⟩ := hparents d child heq
      refine ⟨parent, hkept _ hp, hnames, entry, ?_, hjoins⟩
      rw [hentry]
      exact List.mem_append_right _ he

theorem delete (h : db.Intact) (hmem : row ∈ db k.table)
    (hchildren : ¬ db.HasChildren ⟨k, keyOf k.table row⟩)
    (hentry : db' .entry =
      (db .entry).filter fun entry => !filterByResource (identity k.table row) k entry)
    (hrow : db' k.table = (db k.table).filter fun row' => keyOf k.table row' ≠ keyOf k.table row)
    (hother : ∀ t, t ≠ .entry → t ≠ k.table → db' t = db t) : db'.Intact := by
  have hkeyed : db'.Keyed := by
    intro t
    by_cases he : t = .entry
    · rw [he, hentry]
      exact (h.keyed .entry).filter _
    · by_cases ht : t = k.table
      · rw [ht, hrow]
        exact (h.keyed k.table).filter _
      · rw [hother t he ht]
        exact h.keyed t
  have hgone {k' : ResourceKind} {row' : Row k'.table} (hmem' : row' ∈ db k'.table)
      (hne : (⟨k', row'⟩ : Resource) ≠ ⟨k, row⟩) : row' ∈ db' k'.table := by
    by_cases hk : k' = k
    · subst hk
      rw [hrow, List.mem_filter]
      refine ⟨hmem', decide_eq_true fun hkey => hne ?_⟩
      rw [h.keyed.eq_of_keyOf hmem' hmem hkey]
    · rw [hother _ k'.table_ne_entry fun ht => hk (ResourceKind.table_injective ht)]
      exact hmem'
  have hparent {d : Dependency} {child : Row d.child} {parent : Row d.parent}
      (hc : child ∈ db d.child) (hp : parent ∈ db d.parent) (hnames : d.Names child parent) :
      parent ∈ db' d.parent := by
    apply hgone hp
    intro heq
    apply hchildren
    refine ⟨d, child, hc, ?_⟩
    rw [Dependency.parentRef, ← hnames]
    exact congrArg (fun r : Resource => (⟨r.1, keyOf r.1.table r.2⟩ : ResourceRef)) heq
  refine ⟨hkeyed, fun entry he => ?_, fun d child hc => ?_⟩
  · rw [hentry, List.mem_filter] at he
    obtain ⟨d, child, hc, parent, hp, hnames, hjoins⟩ := h.of_entry entry he.1
    refine ⟨d, child, hgone hc fun heq => ?_, parent, hparent hc hp hnames, hnames, hjoins⟩
    have hfilter : filterByResource (identity k.table row) k entry = true := by
      obtain ⟨hkind, hheq⟩ := Sigma.mk.inj_iff.mp heq
      subst hkind
      simp [filterByResource, hjoins.resourceId, hjoins.resourceKind, eq_of_heq hheq]
    simp [hfilter] at he
  · have hold : child ∈ db d.child ∧ (⟨d.childKind, child⟩ : Resource) ≠ ⟨k, row⟩ := by
      by_cases hk : d.childKind = k
      · subst hk
        rw [hrow, List.mem_filter] at hc
        refine ⟨hc.1, fun heq => ?_⟩
        rw [eq_of_heq (Sigma.mk.inj_iff.mp heq).2] at hc
        simp at hc
      · rw [hother _ d.childKind.table_ne_entry
          fun ht => hk (ResourceKind.table_injective ht)] at hc
        exact ⟨hc, fun heq => hk (Sigma.mk.inj_iff.mp heq).1⟩
    obtain ⟨parent, hp, hnames, entry, he, hjoins⟩ := h.of_child d child hold.1
    refine ⟨parent, hparent hold.1 hp hnames, hnames, entry, ?_, hjoins⟩
    rw [hentry, List.mem_filter]
    refine ⟨he, ?_⟩
    by_contra hfilter
    simp only [filterByResource, Bool.not_eq_true', Bool.not_eq_false, Bool.and_eq_true,
      decide_eq_true_eq] at hfilter
    have hkind : d.childKind = k := hjoins.resourceKind.symm.trans hfilter.2
    subst hkind
    have hid : identity d.child child = identity d.child row :=
      hjoins.resourceId.symm.trans hfilter.1
    exact hold.2 (by rw [h.keyed.eq_of_identity hold.1 hmem hid])

end Database.Intact

end Signare
