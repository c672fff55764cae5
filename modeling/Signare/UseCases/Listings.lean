import Signare.Middleware.RequestContext
import Signare.Storage.Paging
import Signare.UseCases.Deletion

/-!
# Listings

The pages of users, admins and slots that the use cases list, and what a caller sees who goes from
page to page while nothing is changed.
-/

namespace Signare

/-- `PageLimit`, `PageOffset`, `OrderBy` and `OrderDirection` of the inputs. -/
structure ListInput where
  pageLimit : Int
  pageOffset : Int
  orderBy : String
  orderDirection : String

/-- `valid:"natural"`. -/
def ListInput.natural (input : ListInput) : Bool := 0 ≤ input.pageLimit && 0 ≤ input.pageOffset

def orderByLastUpdate : String := "lastUpdate"

def orderAsc : String := "asc"

def orderDesc : String := "desc"

def defaultOrderDirection : String := orderDesc

/-- `utils.DefaultString`. -/
def defaultString (src defaultValue : String) : String :=
  if (trimSpace src).length = 0 then defaultValue else src

/-- `entities.NormalizeOrderDirection`. No letter beyond ASCII has one of these as its lower case. -/
def normalizeOrderDirection (direction : String) : Option String :=
  let normalized := String.ofList ((trimSpace direction).toList.map Char.toLower)
  if normalized = orderAsc then some orderAsc
  else if normalized = orderDesc then some orderDesc
  else none

def ListInput.direction (input : ListInput) : Option String :=
  normalizeOrderDirection (defaultString input.orderDirection defaultOrderDirection)

/-- `OrderByCreationDate`, and `OrderByLastUpdateDate` if that is asked for. -/
def ListInput.order (input : ListInput) (direction : String) : Order :=
  if input.orderBy = orderByLastUpdate then ⟨"last_update", direction⟩
  else ⟨"creation_date", direction⟩

/-- `persistence.MaxPageLimit`. -/
def maxPageLimit : Nat := 100

def clampPageLimit (limit : Int) : Int :=
  if limit ≤ 0 then defaultPageLimit else if limit > maxPageLimit then maxPageLimit else limit

theorem clampPageLimit_bounds (limit : Int) :
    0 < clampPageLimit limit ∧ clampPageLimit limit ≤ maxPageLimit := by
  unfold clampPageLimit defaultPageLimit maxPageLimit
  split
  · omega
  · split <;> omega

section List

variable {t : Table} {β : Type}

def ListInput.filters (input : ListInput) (matching : Row t → Bool) :
    Except SignareError (DBFilter t) :=
  match input.direction with
  | none => .error (invalidArgumentReadable ("invalid order direction " ++
      quoted input.orderDirection ++ ", expected one of [asc, desc]"))
  | some direction =>
    .ok ⟨matching, some (input.order direction),
      some ⟨clampPageLimit input.pageLimit, input.pageOffset⟩⟩

/-- What the listings have in common. -/
def listCollection (valid : Bool) (matching : Row t → Bool)
    (mapFromDB : Row t → Except SignareError β) (sorting : Sorting (Row t))
    (rows : List (Dated (Row t))) (input : ListInput) : Except SignareError (Collection β) := do
  if ¬ (valid && input.natural) then
    .error (invalidArgumentFromErr (.text "does not validate") couldNotValidate)
  let filters ← input.filters matching
  (filters.all mapFromDB sorting rows).1.mapError asInternal

end List

/-- The tables with the dates of their rows. -/
abbrev Stored := (t : Table) → List (Dated (Row t))

/-- `ListAccounts` of a user, where nothing fails. No identifier and no key store is asked for. -/
def Stored.accounts (stored : Stored) (user : UserRow) : Except SignareError (List AccountRow) :=
  ((listAccounts user.key).run
    (fun c w => ((c.perform unaryUUIDs none .idle w).1, (c.perform unaryUUIDs none .idle w).2.2))
    ⟨fun t => (stored t).map Dated.value, 0, ⟨fun _ => none, fun _ => []⟩⟩).1

/-- A user with the accounts of the user. -/
def Stored.withAccounts (stored : Stored) (user : UserRow) :
    Except SignareError (UserRow × List AccountRow) := do
  let userAccounts ← (stored.accounts user).mapError asInternal
  return (user, userAccounts)

def listUsers (stored : Stored) (applicationId : String) (sorting : Sorting UserRow)
    (input : ListInput) : Except SignareError (Collection (UserRow × List AccountRow)) := do
  let userCollection ← listCollection (t := .user) (applicationId ≠ "")
    (fun user => user.key.applicationId = applicationId) UserDB.mapFromDB sorting (stored .user)
    input
  let items ← userCollection.items.mapM (Dated.mapM stored.withAccounts)
  return { userCollection with items }

/-- `ListAdmins`, in pages. -/
def listAdminsPage (stored : Stored) (sorting : Sorting AdminRow) (input : ListInput) :
    Except SignareError (Collection AdminRow) :=
  listCollection (t := .admin) true (fun _ => true) AdminDB.mapFromDB sorting (stored .admin) input

def listHSMSlotsByApplication (stored : Stored) (applicationId : String)
    (sorting : Sorting HSMSlotRow) (input : ListInput) :
    Except SignareError (Collection HSMSlot) :=
  listCollection (t := .hsmSlot) (validID applicationId)
    (fun slot => slot.applicationId = applicationId) HSMSlotDB.mapFromDB sorting (stored .hsmSlot)
    input

def listHSMSlotsByHSMModule (stored : Stored) (hsmModuleId : String)
    (applicationId : Option String) (sorting : Sorting HSMSlotRow) (input : ListInput) :
    Except SignareError (Collection HSMSlot) :=
  listCollection (t := .hsmSlot) (validID hsmModuleId)
    (fun slot => slot.hsmModuleId = hsmModuleId &&
      applicationId.all fun id => slot.applicationId = id)
    HSMSlotDB.mapFromDB sorting (stored .hsmSlot) input

/-- The listings, with what they list. -/
inductive Listing : Table → Type → Type 1
  | users (applicationId : String) : Listing .user (UserRow × List AccountRow)
  | admins : Listing .admin AdminRow
  | slotsByApplication (applicationId : String) : Listing .hsmSlot HSMSlot
  | slotsByHSMModule (hsmModuleId : String) (applicationId : Option String) :
    Listing .hsmSlot HSMSlot

namespace Listing

def list (stored : Stored) : {t : Table} → {β : Type} → Listing t β → Sorting (Row t) → ListInput →
    Except SignareError (Collection β)
  | _, _, users applicationId => listUsers stored applicationId
  | _, _, admins => listAdminsPage stored
  | _, _, slotsByApplication applicationId => listHSMSlotsByApplication stored applicationId
  | _, _, slotsByHSMModule hsmModuleId applicationId =>
    listHSMSlotsByHSMModule stored hsmModuleId applicationId

/-- The check of the other fields of the input. -/
def valid : {t : Table} → {β : Type} → Listing t β → Bool
  | _, _, users applicationId => applicationId ≠ ""
  | _, _, admins => true
  | _, _, slotsByApplication applicationId => validID applicationId
  | _, _, slotsByHSMModule hsmModuleId _ => validID hsmModuleId

/-- The rows that a listing is about. -/
def matching : {t : Table} → {β : Type} → Listing t β → Row t → Bool
  | _, _, users applicationId, user => (UserRow.key user).applicationId = applicationId
  | _, _, admins, _ => true
  | _, _, slotsByApplication applicationId, slot => HSMSlotRow.applicationId slot = applicationId
  | _, _, slotsByHSMModule hsmModuleId applicationId, slot =>
    HSMSlotRow.hsmModuleId slot = hsmModuleId &&
      applicationId.all fun id => HSMSlotRow.applicationId slot = id

/-- What a listing shows of a row. -/
def read (stored : Stored) : {t : Table} → {β : Type} → Listing t β → Row t → Except SignareError β
  | _, _, users _, row => UserDB.mapFromDB row >>= stored.withAccounts
  | _, _, admins, row => AdminDB.mapFromDB row
  | _, _, slotsByApplication _, row => HSMSlotDB.mapFromDB row
  | _, _, slotsByHSMModule _ _, row => HSMSlotDB.mapFromDB row

/-- The internal resource id that a listing shows. -/
def shownIdentity : {t : Table} → {β : Type} → Listing t β → β → String
  | _, _, users _, (user, _) => user.internalResourceId
  | _, _, admins, admin => AdminRow.internalResourceId admin
  | _, _, slotsByApplication _, slot => slot.internalResourceId
  | _, _, slotsByHSMModule _ _, slot => slot.internalResourceId

end Listing

section Browsing

variable {β : Type}

/-- The pages a caller sees who adds the limit of each page to its offset until there are no more
items. The queries are numbered. -/
inductive Browsed (query : Nat → Int → Except SignareError (Collection β)) :
    Nat → Int → List (Collection β) → Prop
  | last {k : Nat} {offset : Int} {page : Collection β} (hpage : query k offset = .ok page)
      (hlast : page.moreItems = false) : Browsed query k offset [page]
  | more {k : Nat} {offset : Int} {page : Collection β} {pages : List (Collection β)}
      (hpage : query k offset = .ok page) (hmore : page.moreItems = true)
      (hrest : Browsed query (k + 1) (offset + page.limit) pages) :
      Browsed query k offset (page :: pages)

variable {query : Nat → Int → Except SignareError (Collection β)}

theorem Browsed.unique {k : Nat} {offset : Int} {pages pages' : List (Collection β)}
    (h : Browsed query k offset pages) (h' : Browsed query k offset pages') : pages = pages' := by
  induction h generalizing pages' with
  | last hpage hlast =>
    cases h' with
    | last hpage' _ => rw [Except.ok.inj (hpage.symm.trans hpage')]
    | more hpage' hmore' _ =>
      rw [Except.ok.inj (hpage.symm.trans hpage'), hmore'] at hlast
      exact absurd hlast (by decide)
  | more hpage hmore _ ih =>
    cases h' with
    | last hpage' hlast' =>
      rw [Except.ok.inj (hpage.symm.trans hpage'), hlast'] at hmore
      exact absurd hmore (by decide)
    | more hpage' _ hrest' =>
      have heq := Except.ok.inj (hpage.symm.trans hpage')
      subst heq
      rw [ih hrest']

/-- Where page `last` is the first after which there are no more items, it is the last that is
seen. -/
theorem browsed_range {limit last : Nat} {page : Nat → Collection β}
    (hpage : ∀ k, query k (k * limit : Nat) = .ok (page k)) (hlimit : ∀ k, (page k).limit = limit)
    (hmore : ∀ k, (page k).moreItems = decide (k < last)) :
    Browsed query 0 0 ((List.range (last + 1)).map page) := by
  have hfrom (d k : Nat) (hd : k + d = last) :
      Browsed query k (k * limit : Nat) ((List.range' k (d + 1)).map page) := by
    induction d generalizing k with
    | zero =>
      apply Browsed.last (hpage k)
      rw [hmore, decide_eq_false_iff_not]
      omega
    | succ d ih =>
      rw [List.range'_succ, List.map_cons]
      apply Browsed.more (hpage k)
      · rw [hmore, decide_eq_true_iff]
        omega
      · have hnext : ((k * limit : Nat) : Int) + (page k).limit = ((k + 1) * limit : Nat) := by
          rw [hlimit, Nat.succ_mul, Nat.cast_add]
        rw [hnext]
        exact ih (k + 1) (by omega)
  have hall := hfrom last 0 (Nat.zero_add last)
  rwa [Nat.zero_mul, ← List.range_eq_range'] at hall

end Browsing

/-- What the input has written after `ORDER BY`. -/
def ListInput.clause (input : ListInput) : OrderClause where
  column := if input.orderBy = orderByLastUpdate then .lastUpdate else .creationDate
  descending := input.direction = some orderDesc

theorem ListInput.toSQLStmt_order {input : ListInput} {direction : String}
    (h : input.direction = some direction) :
    (input.order direction).toSQLStmt = .ok input.clause := by
  have hdirection : direction = orderAsc ∨ direction = orderDesc := by
    rw [ListInput.direction, normalizeOrderDirection] at h
    split at h
    · exact .inl (Option.some.inj h).symm
    · split at h
      · exact .inr (Option.some.inj h).symm
      · cases h
  rw [ListInput.order, ListInput.clause, h]
  by_cases hby : input.orderBy = orderByLastUpdate
  · rw [if_pos hby, if_pos hby]
    cases hdirection with
    | inl hasc => rw [hasc]; rfl
    | inr hdesc => rw [hdesc]; rfl
  · rw [if_neg hby, if_neg hby]
    cases hdirection with
    | inl hasc => rw [hasc]; rfl
    | inr hdesc => rw [hdesc]; rfl

/-- The tables hold no two rows that clash, and what they hold can be read back. -/
structure Stored.Kept (stored : Stored) : Prop where
  keyed : ∀ t, (stored t).Pairwise fun d d' => clash t d.value d'.value = false
  readable : ∀ t, ∀ d ∈ stored t, Readable t d.value

theorem Stored.Kept.accounts_ok {stored : Stored} (h : stored.Kept) {user : UserRow}
    (hkey : user.key.applicationId ≠ "") :
    stored.accounts user =
      .ok (((stored .account).map Dated.value).filter (filterByUser user.key)) := by
  have hread : (((stored .account).map Dated.value).filter (filterByUser user.key)).mapM
      AccountDB.mapFromDB =
        .ok (((stored .account).map Dated.value).filter (filterByUser user.key)) := by
    conv_rhs => rw [← List.map_id (((stored .account).map Dated.value).filter _)]
    apply Except.mapM_eq_ok
    intro account haccount
    obtain ⟨d, hd, rfl⟩ := List.mem_map.mp (List.mem_of_mem_filter haccount)
    exact (h.readable .account d hd).2
  rw [Stored.accounts, listAccounts, validateStruct, if_pos (by simpa using hkey)]
  simp only [Program.pure_eq, Program.done_ok_bind, Program.run_orElse]
  rw [Except.mapError_eq_ok]
  exact hread

theorem Sound.kept {source : UUIDSource} {w : Shared} {stored : Stored} (h : Sound source w)
    (hdb : ∀ t, (stored t).map Dated.value = w.db t) : stored.Kept := by
  constructor
  · intro t
    have hkeyed := h.keyed t
    rwa [← hdb, List.pairwise_map] at hkeyed
  · intro t d hd
    apply h.readable t
    rw [← hdb]
    exact List.mem_map_of_mem hd

variable {t : Table} {β : Type} {stored : Stored}

theorem Listing.exists_shown (L : Listing t β) (hstored : stored.Kept) {d : Dated (Row t)}
    (hd : d ∈ stored t) :
    ∃ b, L.read stored d.value = .ok b ∧ L.shownIdentity b = identity t d.value := by
  have hreadable := hstored.readable t d hd
  cases L with
  | users applicationId =>
    obtain ⟨hkey, hread⟩ := hreadable
    rw [ApplicationStandardID.valid, Bool.and_eq_true] at hkey
    have haccounts : stored.accounts d.value = _ :=
      hstored.accounts_ok (of_decide_eq_true hkey.2)
    refine ⟨(d.value, ((stored .account).map Dated.value).filter (filterByUser d.value.key)), ?_,
      rfl⟩
    rw [Listing.read, hread, Except.ok_bind, Stored.withAccounts, haccounts]
    rfl
  | admins => exact ⟨d.value, hreadable.2, rfl⟩
  | slotsByApplication applicationId =>
    obtain ⟨-, slot, hread⟩ := hreadable
    exact ⟨slot, hread, congrArg HSMSlot.internalResourceId (HSMSlotDB.mapFromDB_ok hread).2⟩
  | slotsByHSMModule hsmModuleId applicationId =>
    obtain ⟨-, slot, hread⟩ := hreadable
    exact ⟨slot, hread, congrArg HSMSlot.internalResourceId (HSMSlotDB.mapFromDB_ok hread).2⟩

/-- The rows of a listing. -/
def Listing.found (L : Listing t β) (stored : Stored) : List (Dated (Row t)) :=
  (stored t).filter fun d => L.matching d.value

/-- The input is let in by the checks of the use case. -/
def Listing.Accepts (L : Listing t β) (input : ListInput) : Prop :=
  L.valid = true ∧ 0 ≤ input.pageLimit ∧ input.direction.isSome

/-- How many items a page has. -/
def ListInput.limit (input : ListInput) : Nat := (clampPageLimit input.pageLimit).toNat

theorem ListInput.limit_pos (input : ListInput) : 0 < input.limit := by
  have hbounds := clampPageLimit_bounds input.pageLimit
  unfold ListInput.limit
  omega

theorem ListInput.clampPageLimit_eq (input : ListInput) :
    clampPageLimit input.pageLimit = input.limit := by
  have hbounds := clampPageLimit_bounds input.pageLimit
  unfold ListInput.limit
  omega

/-- A page: where it begins, and its part of the rows as the database orders them. -/
def pageOf (item : Row t → β) (limit total offset : Nat) (ordered : List (Dated (Row t))) :
    Collection β :=
  ⟨((ordered.drop offset).take limit).map (Dated.map item), limit, offset, offset + limit < total⟩

theorem listCollection_eq {valid : Bool} {matching : Row t → Bool}
    {mapFromDB : Row t → Except SignareError β} {sorting : Sorting (Row t)}
    {rows : List (Dated (Row t))} {input : ListInput} {item : Row t → β} {offset : Nat}
    (hvalid : valid = true) (hlimit : 0 ≤ input.pageLimit) (hdirection : input.direction.isSome)
    (hread : ∀ d ∈ rows, matching d.value → mapFromDB d.value = .ok (item d.value)) :
    listCollection valid matching mapFromDB sorting rows { input with pageOffset := offset } =
      .ok (pageOf item input.limit (rows.filter fun d => matching d.value).length offset
        (sorting.sort input.clause (rows.filter fun d => matching d.value))) := by
  obtain ⟨direction, hdirection⟩ := Option.isSome_iff_exists.mp hdirection
  have hnatural : ListInput.natural { input with pageOffset := offset } = true := by
    simp [ListInput.natural, hlimit]
  have hfilters : ListInput.filters { input with pageOffset := offset } matching =
      .ok ⟨matching, some (input.order direction), some ⟨input.limit, offset⟩⟩ := by
    rw [← input.clampPageLimit_eq]
    unfold ListInput.filters
    rw [show ListInput.direction { input with pageOffset := offset } = some direction
      from hdirection]
    rfl
  have hall := DBFilter.all_eq (f := ⟨matching, some (input.order direction),
    some ⟨input.limit, offset⟩⟩) sorting rfl (ListInput.toSQLStmt_order hdirection) rfl hread
  rw [listCollection, hvalid, hnatural, if_neg (by decide)]
  show (ListInput.filters { input with pageOffset := offset } matching >>= fun filters =>
    (filters.all mapFromDB sorting rows).1.mapError asInternal) = _
  rw [hfilters, Except.ok_bind, hall]
  rfl

theorem Listing.list_eq (L : Listing t β) (hstored : stored.Kept) {input : ListInput}
    (haccepts : L.Accepts input) {item : Row t → β}
    (hread : ∀ d ∈ stored t, L.read stored d.value = .ok (item d.value)) (sorting : Sorting (Row t))
    (offset : Nat) :
    L.list stored sorting { input with pageOffset := offset } =
      .ok (pageOf item input.limit (L.found stored).length offset
        (sorting.sort input.clause (L.found stored))) := by
  obtain ⟨hvalid, hlimit, hdirection⟩ := haccepts
  cases L with
  | users applicationId =>
    have husers : ∀ d ∈ stored .user, UserDB.mapFromDB d.value = .ok (id d.value) :=
      fun d hd => (hstored.readable .user d hd).2
    have hshown : ∀ d ∈ stored .user, stored.withAccounts d.value = .ok (item d.value) := by
      intro d hd
      have hitem := hread d hd
      rwa [Listing.read, husers d hd] at hitem
    let ordered := sorting.sort input.clause ((users applicationId).found stored)
    have hitems : ((ordered.drop offset).take input.limit).mapM (Dated.mapM stored.withAccounts) =
        .ok (((ordered.drop offset).take input.limit).map (Dated.map item)) := by
      apply Except.mapM_eq_ok
      intro d hd
      have hfound := (sorting.perm _ _).mem_iff.mp (List.mem_of_mem_drop (List.mem_of_mem_take hd))
      rw [Dated.mapM, hshown d (List.mem_of_mem_filter hfound)]
      rfl
    have hpage : listCollection (applicationId ≠ "") (users applicationId).matching UserDB.mapFromDB
        sorting (stored .user) { input with pageOffset := offset } =
          .ok (pageOf id input.limit ((users applicationId).found stored).length offset ordered) :=
      listCollection_eq hvalid hlimit hdirection fun d hd _ => husers d hd
    show (listCollection _ (users applicationId).matching _ _ _ _ >>= _) = _
    rw [hpage, Except.ok_bind]
    simp only [pageOf, show (Dated.map id : Dated UserRow → Dated UserRow) = id from rfl,
      List.map_id, hitems]
    rfl
  | admins => exact listCollection_eq hvalid hlimit hdirection fun d hd _ => hread d hd
  | slotsByApplication applicationId =>
    exact listCollection_eq hvalid hlimit hdirection fun d hd _ => hread d hd
  | slotsByHSMModule hsmModuleId applicationId =>
    exact listCollection_eq hvalid hlimit hdirection fun d hd _ => hread d hd

/-- The pages from the first on, each query answered by a database of its own mind. -/
def Listing.Pages (L : Listing t β) (stored : Stored) (input : ListInput)
    (sortings : Nat → Sorting (Row t)) : List (Collection β) → Prop :=
  Browsed (fun k offset => L.list stored (sortings k) { input with pageOffset := offset }) 0 0

/-- The pages come to an end, show every row of the listing exactly once and ordered by the date,
and each says which limit it was read with and whether a row lies beyond it. -/
def Listing.VisitsEachOnce (L : Listing t β) (stored : Stored) (input : ListInput)
    (sortings : Nat → Sorting (Row t)) : Prop :=
  ∃ pages, L.Pages stored input sortings pages ∧
    (∃ shown, (L.found stored).mapM (Dated.mapM (L.read stored)) = .ok shown ∧
      (pages.flatMap Collection.items).Perm shown) ∧
    (pages.flatMap Collection.items).Pairwise (input.clause.key · ≤ input.clause.key ·) ∧
    ∀ page ∈ pages, page.limit = clampPageLimit input.pageLimit ∧
      (page.moreItems = true ↔ page.offset + page.limit < (L.found stored).length)

/-- The dates of the rows of a listing, in the order of the listing. -/
def Listing.dates (L : Listing t β) (stored : Stored) (input : ListInput) : List Int :=
  ((L.found stored).map input.clause.key).insertionSort (· ≤ ·)

/-- No page ends between two rows of one date. -/
def Listing.TiesWithinPages (L : Listing t β) (stored : Stored) (input : ListInput) : Prop :=
  ∀ k, 0 < k → k * input.limit < (L.found stored).length →
    (L.dates stored input)[k * input.limit - 1]? ≠ (L.dates stored input)[k * input.limit]?

instance (L : Listing t β) (stored : Stored) (input : ListInput) :
    Decidable (L.TiesWithinPages stored input) :=
  decidable_of_iff (∀ k < (L.found stored).length, 0 < k → k * input.limit < (L.found stored).length →
    (L.dates stored input)[k * input.limit - 1]? ≠ (L.dates stored input)[k * input.limit]?) <| by
    constructor
    · intro h k hk hlt
      exact h k ((Nat.le_mul_of_pos_right k input.limit_pos).trans_lt hlt) hk hlt
    · intro h k _ hk hlt
      exact h k hk hlt

theorem Listing.dates_eq (L : Listing t β) (stored : Stored) (input : ListInput)
    (sorting : Sorting (Row t)) :
    (sorting.sort input.clause (L.found stored)).map input.clause.key = L.dates stored input := by
  apply List.Perm.eq_of_pairwise' (r := (· ≤ ·))
  · exact List.pairwise_map.mpr (sorting.sorted _ _)
  · exact List.pairwise_insertionSort _ _
  · exact ((sorting.perm _ _).map _).trans (List.perm_insertionSort _ _).symm

section Visits

variable {L : Listing t β} {input : ListInput} {item : Row t → β}

/-- The last page begins before the last row. -/
def lastPage (limit total : Nat) : Nat := (total - 1) / limit

theorem lt_lastPage {limit total k : Nat} (hlimit : 0 < limit) :
    k * limit + limit < total ↔ k < lastPage limit total := by
  have hle : k + 1 ≤ (total - 1) / limit ↔ (k + 1) * limit ≤ total - 1 :=
    Nat.le_div_iff_mul_le hlimit
  rw [Nat.succ_mul] at hle
  unfold lastPage
  omega

theorem lastPage_spec {limit total : Nat} (hlimit : 0 < limit) :
    total ≤ (lastPage limit total + 1) * limit := by
  by_contra hlt
  rw [not_le, Nat.succ_mul, lt_lastPage hlimit] at hlt
  exact lt_irrefl _ hlt

variable (hstored : stored.Kept) (haccepts : L.Accepts input)
  (hread : ∀ d ∈ stored t, L.read stored d.value = .ok (item d.value))
include hstored haccepts hread

theorem pages_eq (sortings : Nat → Sorting (Row t)) {pages : List (Collection β)} :
    L.Pages stored input sortings pages ↔
      pages = (List.range (lastPage input.limit (L.found stored).length + 1)).map fun k =>
        pageOf item input.limit (L.found stored).length (k * input.limit)
          ((sortings k).sort input.clause (L.found stored)) := by
  have hbrowsed : L.Pages stored input sortings
      ((List.range (lastPage input.limit (L.found stored).length + 1)).map fun k =>
        pageOf item input.limit (L.found stored).length (k * input.limit)
          ((sortings k).sort input.clause (L.found stored))) := by
    apply browsed_range
    · intro k
      exact L.list_eq hstored haccepts hread (sortings k) (k * input.limit)
    · intro k
      rfl
    · intro k
      exact decide_eq_decide.mpr (lt_lastPage input.limit_pos)
  constructor
  · intro h
    exact h.unique hbrowsed
  · intro h
    rw [h]
    exact hbrowsed

theorem items_eq {sortings : Nat → Sorting (Row t)} {pages : List (Collection β)}
    (hpages : L.Pages stored input sortings pages) :
    pages.flatMap Collection.items =
      (Pages.pages input.limit (fun k => (sortings k).sort input.clause (L.found stored))
        (lastPage input.limit (L.found stored).length + 1)).map (Dated.map item) := by
  rw [(pages_eq hstored haccepts hread sortings).mp hpages, List.flatMap_map, Pages.pages,
    List.map_flatMap]
  rfl

/-- Where no page ends between two rows of one date, whatever the database picks, every row is shown
once. -/
theorem visits_of_ties (hties : L.TiesWithinPages stored input)
    (sortings : Nat → Sorting (Row t)) : L.VisitsEachOnce stored input sortings := by
  let rows := L.found stored
  let order (k : Nat) := (sortings k).sort input.clause rows
  have hperm (k : Nat) : (order k).Perm (order 0) :=
    ((sortings k).perm _ _).trans ((sortings 0).perm _ _).symm
  have hsorted (k : Nat) : (order k).Pairwise (input.clause.key · ≤ input.clause.key ·) :=
    (sortings k).sorted _ _
  have hlength : (order 0).length = rows.length := ((sortings 0).perm _ _).length_eq
  have hkeys : (order 0).map input.clause.key = L.dates stored input :=
    L.dates_eq stored input (sortings 0)
  have hall : rows.mapM (Dated.mapM (L.read stored)) = .ok (rows.map (Dated.map item)) := by
    apply Except.mapM_eq_ok
    intro d hd
    rw [Dated.mapM, hread d (List.mem_of_mem_filter hd)]
    rfl
  let pages := (List.range (lastPage input.limit rows.length + 1)).map fun k =>
    pageOf item input.limit rows.length (k * input.limit) (order k)
  have hpages : L.Pages stored input sortings pages :=
    (pages_eq hstored haccepts hread sortings).mpr rfl
  refine ⟨pages, hpages, ⟨_, hall, ?_⟩, ?_, ?_⟩
  · rw [items_eq hstored haccepts hread hpages]
    apply List.Perm.map
    apply List.Perm.trans _ ((sortings 0).perm input.clause rows)
    apply Pages.pages_perm hperm hsorted (hsorted 0)
    · rw [hlength]
      exact lastPage_spec input.limit_pos
    · intro k hk hlt
      rw [hkeys]
      rw [hlength] at hlt
      exact hties k hk hlt
  · rw [items_eq hstored haccepts hread hpages, List.pairwise_map]
    simp only [OrderClause.key_map]
    exact Pages.pages_sorted hperm hsorted (hsorted 0)
  · intro page hpage
    obtain ⟨k, -, rfl⟩ := List.mem_map.mp hpage
    constructor
    · exact input.clampPageLimit_eq.symm
    · show decide (_ < _) = true ↔ ((k * input.limit : Nat) : Int) + (input.limit : Int) < _
      rw [decide_eq_true_iff]
      exact_mod_cast Iff.rfl

/-- Where a page ends between two rows of one date, the database can have one of them shown
twice. -/
theorem ties_of_visits (h : ∀ sortings : Nat → Sorting (Row t), L.VisitsEachOnce stored input sortings)
    (hshown : ∀ d ∈ stored t, L.shownIdentity (item d.value) = identity t d.value) :
    L.TiesWithinPages stored input := by
  intro k hk hlt hequal
  let rows := L.found stored
  let stable := Sorting.stable (Row t)
  have hkeys := L.dates_eq stored input stable
  have hperm := stable.perm input.clause rows
  rw [← hkeys] at hequal
  rw [show (L.found stored).length = _ from hperm.length_eq.symm] at hlt
  obtain ⟨order, horder, hsorted, hrepeated⟩ :=
    Pages.exists_repeated (stable.sorted input.clause rows) input.limit_pos hk hlt hequal
  let sortings (j : Nat) : Sorting (Row t) :=
    stable.answer input.clause rows (order j) ((horder j).trans hperm) (hsorted j)
  obtain ⟨pages, hpages, ⟨shown, hall, hvisits⟩, -⟩ := h sortings
  have hshownAll : rows.mapM (Dated.mapM (L.read stored)) = .ok (rows.map (Dated.map item)) := by
    apply Except.mapM_eq_ok
    intro d hd
    rw [Dated.mapM, hread d (List.mem_of_mem_filter hd)]
    rfl
  rw [Except.ok.inj (hall.symm.trans hshownAll), items_eq hstored haccepts hread hpages] at hvisits
  have hnodup : (rows.map (Dated.map item)).Nodup := by
    rw [List.nodup_iff_pairwise_ne, List.pairwise_map]
    have hpair := (hstored.keyed t).filter (fun d => L.matching d.value)
    apply List.Pairwise.imp_of_mem _ hpair
    intro d d' hd hd' hclash heq
    apply identity_ne_of_clash hclash
    rw [← hshown d (List.mem_of_mem_filter hd), ← hshown d' (List.mem_of_mem_filter hd')]
    exact congrArg (fun b => L.shownIdentity (Dated.value b)) heq
  have hsort (j : Nat) : (sortings j).sort input.clause (L.found stored) = order j :=
    Sorting.answer_sort
  simp only [hsort] at hvisits
  apply hrepeated (lastPage input.limit (L.found stored).length + 1) _ _
  · rw [hperm.length_eq] at hlt
    exact Nat.lt_of_mul_lt_mul_right (hlt.trans_le (lastPage_spec input.limit_pos))
  · exact List.Nodup.of_map _ (hvisits.nodup_iff.mpr hnodup)

end Visits

theorem Listing.nonempty (L : Listing t β) : Nonempty β := by
  cases L with
  | users applicationId => exact ⟨⟨⟨"", ""⟩, "", [], "", ""⟩, []⟩
  | admins => exact ⟨⟨"", "", [], "", ""⟩⟩
  | slotsByApplication applicationId => exact ⟨⟨"", "", "", "", "", "", ⟨[], none⟩, ""⟩⟩
  | slotsByHSMModule hsmModuleId applicationId =>
    exact ⟨⟨"", "", "", "", "", "", ⟨[], none⟩, ""⟩⟩

/-- Whoever goes through the pages sees every row exactly once, in the order of the dates, whatever
the database picks among rows of one date, if and only if no page ends between two rows of one
date. -/
theorem visitsEachOnce_iff (L : Listing t β) (hstored : stored.Kept) {input : ListInput}
    (haccepts : L.Accepts input) :
    (∀ sortings : Nat → Sorting (Row t), L.VisitsEachOnce stored input sortings) ↔
      L.TiesWithinPages stored input := by
  have hnonempty := L.nonempty
  choose! item hitem using
    (show ∀ row, row ∈ (stored t).map Dated.value → ∃ b, L.read stored row = .ok b ∧
      L.shownIdentity b = identity t row by
      intro row hrow
      obtain ⟨d, hd, rfl⟩ := List.mem_map.mp hrow
      exact L.exists_shown hstored hd)
  have hread : ∀ d ∈ stored t, L.read stored d.value = .ok (item d.value) :=
    fun d hd => (hitem d.value (List.mem_map_of_mem hd)).1
  have hshown : ∀ d ∈ stored t, L.shownIdentity (item d.value) = identity t d.value :=
    fun d hd => (hitem d.value (List.mem_map_of_mem hd)).2
  exact ⟨fun h => ties_of_visits hstored haccepts hread h hshown,
    visits_of_ties hstored haccepts hread⟩

def ada : AdminRow := ⟨"ada", "a", [signerAdminRole], "", "1"⟩

def bea : AdminRow := ⟨"bea", "b", [signerAdminRole], "", "1"⟩

/-- Two admins with their dates of creation. -/
def datedAdmins (created created' : Int) : Stored
  | .admin => [⟨ada, created, created⟩, ⟨bea, created', created'⟩]
  | _ => []

theorem datedAdmins_kept (created created' : Int) : (datedAdmins created created').Kept := by
  have hclash : clash .admin ada bea = false := by decide
  have hada : Readable .admin ada := ⟨by decide, rfl⟩
  have hbea : Readable .admin bea := ⟨by decide, rfl⟩
  constructor
  · intro t
    cases t with
    | admin => exact List.pairwise_pair.mpr hclash
    | _ => exact List.Pairwise.nil
  · intro t d hd
    cases t with
    | admin =>
      rw [datedAdmins, List.mem_pair] at hd
      cases hd with
      | inl heq => exact heq ▸ hada
      | inr heq => exact heq ▸ hbea
    | _ => cases hd

/-- One item for each page. -/
def oneByOne : ListInput := ⟨1, 0, "", ""⟩

theorem admins_accepts_oneByOne : Listing.admins.Accepts oneByOne := ⟨rfl, by decide, by decide⟩

theorem visitsEachOnce_iff_days :
    (∀ sortings : Nat → Sorting AdminRow,
      Listing.admins.VisitsEachOnce (datedAdmins 1 2) oneByOne sortings) ↔
      Listing.admins.TiesWithinPages (datedAdmins 1 2) oneByOne :=
  visitsEachOnce_iff .admins (datedAdmins_kept 1 2) admins_accepts_oneByOne

/-- Of two admins that were created at one time, one can be shown on both pages. -/
theorem visitsEachOnce_not_twins :
    ¬ ∀ sortings : Nat → Sorting AdminRow,
      Listing.admins.VisitsEachOnce (datedAdmins 1 1) oneByOne sortings := by
  intro h
  have hread : ∀ d ∈ datedAdmins 1 1 .admin,
      Listing.admins.read (datedAdmins 1 1) d.value = .ok (id d.value) :=
    fun d hd => ((datedAdmins_kept 1 1).readable .admin d hd).2
  have hties := ties_of_visits (datedAdmins_kept 1 1) admins_accepts_oneByOne hread h fun _ _ => rfl
  exact absurd hties (by decide)

end Signare
