import Signare.Lib.Pages
import Signare.Lib.Outcome
import Signare.Storage.Repository
import Mathlib.Data.List.Sort
import Mathlib.Algebra.Order.Group.Int

/-!
# Pages of a listing

A listing orders the rows that match by one of their dates and asks for one row more than the page
has. The order among rows of one date is picked by the database, in each query anew.
-/

namespace Signare

/-- A row or a resource with its dates. -/
structure Dated (α : Type) where
  value : α
  creationDate : Int
  lastUpdate : Int

def Dated.map {α β : Type} (f : α → β) (d : Dated α) : Dated β :=
  ⟨f d.value, d.creationDate, d.lastUpdate⟩

def Dated.mapM {α β ε : Type} (f : α → Except ε β) (d : Dated α) : Except ε (Dated β) :=
  (f d.value).map fun b => ⟨b, d.creationDate, d.lastUpdate⟩

inductive DateColumn
  | creationDate
  | lastUpdate
  deriving DecidableEq

/-- `persistence.Order`. -/
structure Order where
  by_ : String
  direction : String

/-- What is written after `ORDER BY`. -/
structure OrderClause where
  column : DateColumn
  descending : Bool
  deriving DecidableEq

/-- `validOrderByOptions`. -/
def validOrderByOptions : String → Option DateColumn
  | "creation_date" => some .creationDate
  | "last_update" => some .lastUpdate
  | _ => none

/-- `%q`, of a text that needs no escapes. -/
def quoted (s : String) : String := "\"" ++ s ++ "\""

def Order.toSQLStmt (o : Order) : Except PersistenceError OrderClause :=
  match validOrderByOptions o.by_ with
  | none => .error (.statementFailed ("invalid order by option " ++ quoted o.by_))
  | some column =>
    match o.direction with
    | "asc" => .ok ⟨column, false⟩
    | "desc" => .ok ⟨column, true⟩
    | _ => .error (.statementFailed ("invalid order direction " ++ quoted o.direction))

def Dated.date {α : Type} (column : DateColumn) (d : Dated α) : Int :=
  match column with
  | .creationDate => d.creationDate
  | .lastUpdate => d.lastUpdate

/-- What rows ascend by. -/
def OrderClause.key {α : Type} (clause : OrderClause) (d : Dated α) : Int :=
  if clause.descending then -d.date clause.column else d.date clause.column

@[simp] theorem OrderClause.key_map {α β : Type} (clause : OrderClause) (f : α → β) (d : Dated α) :
    clause.key (d.map f) = clause.key d := by
  obtain ⟨column, descending⟩ := clause
  cases column with
  | creationDate => rfl
  | lastUpdate => rfl

/-- How the database orders rows in a query. -/
structure Sorting (α : Type) where
  sort : OrderClause → List (Dated α) → List (Dated α)
  perm : ∀ clause rows, (sort clause rows).Perm rows
  sorted : ∀ clause rows, (sort clause rows).Pairwise (clause.key · ≤ clause.key ·)

/-- Rows of one date stay as they are stored. -/
def Sorting.stable (α : Type) : Sorting α where
  sort clause rows := rows.insertionSort fun d d' => clause.key d ≤ clause.key d'
  perm _ rows := List.perm_insertionSort _ rows
  sorted clause rows := by
    rw [← List.pairwise_map (f := clause.key) (R := (· ≤ ·)),
      List.map_insertionSort (s := (· ≤ ·)) _ clause.key rows fun _ _ _ _ => Iff.rfl]
    exact List.pairwise_insertionSort _ _

/-- The order that is given, for one query; else that of the database `s`. -/
noncomputable def Sorting.answer {α : Type} (s : Sorting α) (clause : OrderClause)
    (rows ordered : List (Dated α)) (hperm : ordered.Perm rows)
    (hsorted : ordered.Pairwise (clause.key · ≤ clause.key ·)) : Sorting α where
  sort clause' rows' :=
    open Classical in if clause' = clause ∧ rows' = rows then ordered else s.sort clause' rows'
  perm clause' rows' := by
    by_cases h : clause' = clause ∧ rows' = rows
    · rw [if_pos h, h.2]
      exact hperm
    · rw [if_neg h]
      exact s.perm clause' rows'
  sorted clause' rows' := by
    by_cases h : clause' = clause ∧ rows' = rows
    · rw [if_pos h, h.1]
      exact hsorted
    · rw [if_neg h]
      exact s.sorted clause' rows'

theorem Sorting.answer_sort {α : Type} {s : Sorting α} {clause : OrderClause}
    {rows ordered : List (Dated α)} {hperm : ordered.Perm rows}
    {hsorted : ordered.Pairwise (clause.key · ≤ clause.key ·)} :
    (s.answer clause rows ordered hperm hsorted).sort clause rows = ordered :=
  if_pos ⟨rfl, rfl⟩

/-- `persistence.Pagination`. -/
structure Pagination where
  limit : Int
  offset : Int

/-- `UserDBFilter` and its likes. -/
structure DBFilter (t : Table) where
  matching : Row t → Bool
  order : Option Order
  pagination : Option Pagination

variable {t : Table} {β : Type}

/-- `ORDER BY`, if there is an order. -/
def orderBy (sorting : Sorting (Row t)) (found : List (Dated (Row t))) :
    Option Order → Except PersistenceError (List (Dated (Row t)))
  | none => .ok found
  | some order => order.toSQLStmt.map fun clause => sorting.sort clause found

/-- `LIMIT` and `OFFSET`, if there is a page. -/
def limitOffset (ordered : List (Dated (Row t))) : Option Pagination → List (Dated (Row t))
  | none => ordered
  | some p => (ordered.drop p.offset.toNat).take p.limit.toNat

/-- The statement `list`. -/
def DBFilter.list (sorting : Sorting (Row t)) (rows : List (Dated (Row t))) (f : DBFilter t) :
    Except PersistenceError (List (Dated (Row t))) := do
  let found := rows.filter fun d => f.matching d.value
  let ordered ← orderBy sorting found f.order
  return limitOffset ordered f.pagination

/-- `UserCollection` and its likes. -/
structure Collection (β : Type) where
  items : List (Dated β)
  limit : Int
  offset : Int
  moreItems : Bool

def mapSliceFromDB (mapFromDB : Row t → Except SignareError β) (rows : List (Dated (Row t))) :
    Except SignareError (List (Dated β)) :=
  rows.mapM (Dated.mapM mapFromDB)

/-- `All`, and the filter as it is left: the limit is raised for the query, and lowered again if the
query succeeds. -/
def DBFilter.all (mapFromDB : Row t → Except SignareError β) (sorting : Sorting (Row t))
    (rows : List (Dated (Row t))) (f : DBFilter t) :
    Except SignareError (Collection β) × DBFilter t :=
  match f.pagination with
  | none =>
    match f.list sorting rows with
    | .error err => (.error (mapPersistenceErrorToSignerError err), f)
    | .ok storageData =>
      ((mapSliceFromDB mapFromDB storageData).mapError asInternal |>.map fun items =>
        ⟨items, storageData.length, 0, false⟩, f)
  | some p =>
    let raised : DBFilter t := { f with pagination := some { p with limit := p.limit + 1 } }
    match raised.list sorting rows with
    | .error err => (.error (mapPersistenceErrorToSignerError err), raised)
    | .ok storageData =>
      let moreItems : Bool := storageData.length = p.limit + 1
      let page := if moreItems then storageData.dropLast else storageData
      ((mapSliceFromDB mapFromDB page).mapError asInternal |>.map fun items =>
        ⟨items, p.limit + 1 - 1, p.offset, moreItems⟩,
        { f with pagination := some { p with limit := p.limit + 1 - 1 } })

theorem mapSliceFromDB_ok {mapFromDB : Row t → Except SignareError β} {rows : List (Dated (Row t))}
    {item : Row t → β} (h : ∀ d ∈ rows, mapFromDB d.value = .ok (item d.value)) :
    mapSliceFromDB mapFromDB rows = .ok (rows.map (Dated.map item)) := by
  apply Except.mapM_eq_ok
  intro d hd
  rw [Dated.mapM, h d hd]
  rfl

section All

variable {f : DBFilter t} {order : Order} {clause : OrderClause} {limit offset : Nat}
  {mapFromDB : Row t → Except SignareError β} {item : Row t → β} {rows : List (Dated (Row t))}

/-- The rows that match, in the order of the database. -/
def DBFilter.ordered (f : DBFilter t) (sorting : Sorting (Row t)) (clause : OrderClause)
    (rows : List (Dated (Row t))) : List (Dated (Row t)) :=
  sorting.sort clause (rows.filter fun d => f.matching d.value)

theorem DBFilter.length_ordered (sorting : Sorting (Row t)) : (f.ordered sorting clause rows).length =
    (rows.filter fun d => f.matching d.value).length := (sorting.perm _ _).length_eq

theorem DBFilter.list_eq (sorting : Sorting (Row t)) (horder : f.order = some order)
    (hclause : order.toSQLStmt = .ok clause) (hpage : f.pagination = some ⟨limit, offset⟩) :
    f.list sorting rows = .ok (((f.ordered sorting clause rows).drop offset).take limit) := by
  rw [DBFilter.list, horder, hpage, orderBy, hclause]
  rfl

theorem DBFilter.all_eq (sorting : Sorting (Row t)) (horder : f.order = some order)
    (hclause : order.toSQLStmt = .ok clause) (hpage : f.pagination = some ⟨limit, offset⟩)
    (hread : ∀ d ∈ rows, f.matching d.value → mapFromDB d.value = .ok (item d.value)) :
    f.all mapFromDB sorting rows =
      (.ok ⟨(((f.ordered sorting clause rows).drop offset).take limit).map (Dated.map item), limit,
        offset, offset + limit < (rows.filter fun d => f.matching d.value).length⟩, f) := by
  let raised : DBFilter t := { f with pagination := some ⟨(limit : Int) + 1, offset⟩ }
  have hlist : raised.list sorting rows =
      .ok (((f.ordered sorting clause rows).drop offset).take (limit + 1)) :=
    DBFilter.list_eq sorting horder hclause rfl
  have hlength : (f.ordered sorting clause rows).length = _ := length_ordered sorting
  rw [← hlength]
  have hmem : ∀ d ∈ f.ordered sorting clause rows, mapFromDB d.value = .ok (item d.value) := by
    intro d hd
    have hfound := (sorting.perm _ _).mem_iff.mp hd
    rw [List.mem_filter] at hfound
    exact hread d hfound.1 hfound.2
  generalize f.ordered sorting clause rows = ordered at hlist hmem
  have hmore : (((ordered.drop offset).take (limit + 1)).length : Int) = limit + 1 ↔
      offset + limit < ordered.length := by
    rw [List.length_take, List.length_drop]
    omega
  have hpage' : (if offset + limit < ordered.length then
      ((ordered.drop offset).take (limit + 1)).dropLast else (ordered.drop offset).take (limit + 1))
        = (ordered.drop offset).take limit := by
    by_cases hlt : offset + limit < ordered.length
    · have hlength : ((ordered.drop offset).take (limit + 1)).length = limit + 1 := by
        rw [List.length_take, List.length_drop]
        omega
      rw [if_pos hlt, List.dropLast_eq_take, hlength, Nat.add_sub_cancel, List.take_take,
        Nat.min_eq_left (Nat.le_succ limit)]
    · rw [if_neg hlt, List.take_of_length_le, List.take_of_length_le]
      · rw [List.length_drop]
        omega
      · rw [List.length_drop]
        omega
  have hitems : mapSliceFromDB mapFromDB ((ordered.drop offset).take limit) = _ :=
    mapSliceFromDB_ok fun d hd => hmem d (List.mem_of_mem_drop (List.mem_of_mem_take hd))
  rw [DBFilter.all, hpage]
  simp only [show DBFilter.list sorting rows { f with pagination := some ⟨(limit : Int) + 1, offset⟩ }
    = _ from hlist]
  simp only [decide_eq_true_eq, hmore, hpage', hitems]
  have hlimit : (limit : Int) + 1 - 1 = limit := by omega
  rw [hlimit, ← hpage]
  rfl

end All
end Signare
