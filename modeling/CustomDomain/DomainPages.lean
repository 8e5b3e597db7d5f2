import CustomDomain.DomainService
import CustomDomain.SqlLike

/-!
# Listing and searching domains

`_list_query` and `page_domains` of `app/services/domains.py`, the route that serves a page and
`iter_domains` of the SDK, which follows `next_offset` from page to page.
-/

namespace CustomDomain

open PythonText SqlLike

/-! ## The query -/

/-- What a search compares with: `str.lower`, the `lower` of the database, and whether its `LIKE`
ignores the case of ASCII letters. -/
structure SearchEngine where
  lower : String → String
  sqlLower : String → String
  foldsCase : Bool := false

/-- Two characters of a pattern and a text. -/
def SearchEngine.same (engine : SearchEngine) (first second : Char) : Bool :=
  if engine.foldsCase then first.toLower == second.toLower else first == second

/-- `str.replace` of one character. -/
def replaceCharacter (old : Char) (new : String) (text : String) : String :=
  String.ofList (text.toList.flatMap fun character =>
    if character = old then new.toList else [character])

/-- The text between the two `%` of the pattern. -/
def escapeSearch (text : String) : String :=
  replaceCharacter '_' "\\_" (replaceCharacter '%' "\\%" (replaceCharacter '\\' "\\\\" text))

/-- The rows of a listing, before a search. -/
structure ListFilter where
  reference : Option String := none
  status : Option DomainStatus := none
  includeDeleted : Bool := false

def ListFilter.admits (filter : ListFilter) (application : Application) (domain : Domain) : Bool :=
  (filter.includeDeleted || domain.isLive) && decide (domain.applicationId = application.id) &&
    (match filter.reference with
      | some reference => domain.reference == reference
      | none => true) &&
    match filter.status with
    | some status => domain.status == status
    | none => true

/-- The `LIKE` conditions of a search. -/
def SearchEngine.finds (engine : SearchEngine) (search : String) (domain : Domain) : Bool :=
  let pattern := '%' :: (escapeSearch (engine.lower search)).toList ++ ['%']
  like engine.same '\\' pattern domain.hostname.toList ||
    like engine.same '\\' pattern (engine.sqlLower domain.reference).toList

/-- `_list_query`. -/
def listQuery (engine : SearchEngine) (application : Application) (filter : ListFilter)
    (search : Option String) (view : Database) : List Domain :=
  (view.domains.filter fun domain => filter.admits application domain &&
    match search with
    | some search => search.isEmpty || engine.finds search domain
    | none => true).insertionSort Domain.before

/-- `page_domains`: one page, and whether more rows follow. -/
def pageDomains (engine : SearchEngine) (application : Application) (filter : ListFilter)
    (search : Option String) (limit offset : Int) (view : Database) : List Domain × Bool :=
  let limit := max 1 (min limit maxPageSize)
  let offset := max 0 offset
  let search := if (strip (search.getD "")).isEmpty then none else some (strip (search.getD ""))
  let rows := ((listQuery engine application filter search view).drop offset.toNat).take
    (limit + 1).toNat
  (rows.take limit.toNat, decide (limit < rows.length))

/-! ## Pages of the API -/

/-- A page as the route answers it. -/
structure DomainPage (Item : Type) where
  items : List Item
  limit : Int
  offset : Int
  nextOffset : Option Int

/-- `max_length` of the `reference` parameter. -/
def maxReferenceQuery : Nat := 255

/-- `list_domains` of `v1/router.py`, or `none` where a parameter is refused; `resource` is
what a domain is answered as. -/
def listDomains {Item : Type} (engine : SearchEngine) (resource : Domain → Item)
    (application : Application) (filter : ListFilter) (limit offset : Int) (view : Database) :
    Option (DomainPage Item) :=
  if (filter.reference.all fun text => decide (text.length ≤ maxReferenceQuery)) = true ∧
      1 ≤ limit ∧ limit ≤ maxPageSize ∧ 0 ≤ offset then
    let (rows, hasMore) := pageDomains engine application filter none limit offset view
    some
      { items := rows.map resource
        limit := limit
        offset := offset
        nextOffset := if hasMore then some (offset + limit) else none }
  else none

/-- The loop of `iter_domains`: the pages it reads from an offset on, or `none` where a request
fails or the fuel does not suffice. -/
def followPages {Item : Type} (request : Int → Option (DomainPage Item)) :
    Nat → Int → Option (List (DomainPage Item))
  | 0, _ => none
  | fuel + 1, offset =>
      match request offset with
      | none => none
      | some page =>
          match page.nextOffset with
          | none => some [page]
          | some next => (followPages request fuel next).map (page :: ·)

/-- `iter_domains`. -/
def iterDomains {Item : Type} (engine : SearchEngine) (resource : Domain → Item)
    (application : Application) (reference : Option String) (status : Option DomainStatus)
    (pageSize : Int) (view : Database) (fuel : Nat) : Option (List Item) :=
  (followPages (fun offset => listDomains engine resource application
    { reference := reference, status := status } pageSize offset view) fuel 0).map
      (·.flatMap (·.items))

/-! ## Following the pages -/

namespace Domain

theorem before_total (first second : Domain) : first.before second ∨ second.before first := by
  unfold before
  rcases lt_trichotomy first.createdAt second.createdAt with earlier | same | later
  · exact .inl (.inl earlier)
  · rcases le_total first.id second.id with order | order
    · exact .inl (.inr ⟨same, order⟩)
    · exact .inr (.inr ⟨same.symm, order⟩)
  · exact .inr (.inl later)

theorem before_trans (first second third : Domain) (left : first.before second)
    (right : second.before third) : first.before third := by
  unfold before at *
  rcases left with earlier | ⟨same, order⟩
  · rcases right with later | ⟨equal, -⟩
    · exact .inl (lt_trans earlier later)
    · exact .inl (equal ▸ earlier)
  · rcases right with later | ⟨equal, after⟩
    · exact .inl (same ▸ later)
    · exact .inr ⟨same.trans equal, le_trans order after⟩

instance : Std.Total Domain.before := ⟨before_total⟩

instance : IsTrans Domain Domain.before := ⟨before_trans⟩

end Domain

theorem listQuery_ordered (engine : SearchEngine) (application : Application) (filter : ListFilter)
    (search : Option String) (view : Database) :
    (listQuery engine application filter search view).Pairwise Domain.before :=
  List.pairwise_insertionSort _ _

theorem listQuery_perm (engine : SearchEngine) (application : Application) (filter : ListFilter)
    (view : Database) :
    (listQuery engine application filter none view).Perm
      (view.domains.filter (filter.admits application)) := by
  refine (List.perm_insertionSort _ _).trans (List.Perm.of_eq ?_)
  exact List.filter_congr fun _ _ => Bool.and_true _

/-- A page of at most `size` rows, with a next offset when rows are left. -/
def rowsPage {Item : Type} (rows : List Item) (size offset : Nat) : DomainPage Item where
  items := (rows.drop offset).take size
  limit := size
  offset := offset
  nextOffset := if offset + size < rows.length then some (offset + size : Int) else none

section Follow

variable {Item : Type} {rows : List Item} {size : Nat}

/-- The pages from an offset on: full ones with a next offset, and a last one without. -/
structure PagesFrom (rows : List Item) (size offset : Nat) (pages : List (DomainPage Item)) :
    Prop where
  items : pages.flatMap (·.items) = rows.drop offset
  last : ∃ front last, pages = front ++ [last] ∧ last.nextOffset = none ∧
    last.items.length ≤ size ∧ (last.items = [] → rows.drop offset = []) ∧
    ∀ page ∈ front, page.nextOffset ≠ none ∧ page.items.length = size

/-- More fuel does not change what was read. -/
theorem followPages_mono {request : Int → Option (DomainPage Item)} {fuel more : Nat} {offset : Int}
    {pages : List (DomainPage Item)} (followed : followPages request fuel offset = some pages)
    (order : fuel ≤ more) : followPages request more offset = some pages := by
  induction fuel generalizing more offset pages with
  | zero => cases followed
  | succ fuel ih =>
      obtain ⟨more, rfl⟩ : ∃ rest, more = rest + 1 := ⟨more - 1, by omega⟩
      rw [followPages] at followed ⊢
      cases answer : request offset with
      | none =>
          rw [answer] at followed
          cases followed
      | some page =>
          simp only [answer] at followed ⊢
          cases next : page.nextOffset with
          | none =>
              rw [next] at followed
              exact followed
          | some offset =>
              simp only [next] at followed ⊢
              obtain ⟨rest, read, shape⟩ := Option.map_eq_some_iff.mp followed
              rw [ih read (by omega)]
              exact congrArg some shape

theorem followPages_rows {request : Int → Option (DomainPage Item)} (positive : 0 < size)
    (answers : ∀ offset : Nat, request offset = some (rowsPage rows size offset)) (fuel : Nat)
    (offset : Nat) (enough : rows.length - offset < fuel) :
    ∃ pages, followPages request fuel offset = some pages ∧ PagesFrom rows size offset pages := by
  induction fuel generalizing offset with
  | zero => omega
  | succ fuel ih =>
      rw [followPages, answers]
      by_cases more : offset + size < rows.length
      · obtain ⟨pages, followed, rest⟩ := ih (offset + size) (by omega)
        have next : (rowsPage rows size offset).nextOffset = some ((offset + size : Nat) : Int) := by
          rw [rowsPage, if_pos more]
          push_cast
          rfl
        have full : (rowsPage rows size offset).items.length = size := by
          rw [rowsPage, List.length_take, List.length_drop]
          omega
        obtain ⟨front, last, shape, none, few, some_, fronts⟩ := rest.last
        simp only [next, followed, Option.map_some]
        refine ⟨_, rfl, ?_, rowsPage rows size offset :: front, last, by rw [shape]; rfl, none, few,
          fun empty => ?_, fun page member => ?_⟩
        · rw [List.flatMap_cons, rest.items, rowsPage, ← List.drop_drop, List.take_append_drop]
        · have left := List.drop_eq_nil_iff.mp (some_ empty)
          omega
        · rcases List.mem_cons.mp member with rfl | after
          · exact ⟨by rw [next]; exact Option.some_ne_none _, full⟩
          · exact fronts page after
      · have next : (rowsPage rows size offset).nextOffset = none := by
          rw [rowsPage, if_neg more]
        have all : (rowsPage rows size offset).items = rows.drop offset := by
          refine List.take_of_length_le ?_
          rw [List.length_drop]
          omega
        simp only [next]
        refine ⟨_, rfl, by simp [all], [], rowsPage rows size offset, rfl, next, ?_, ?_,
          fun _ none => absurd none List.not_mem_nil⟩
        · rw [all, List.length_drop]
          omega
        · exact fun empty => all.symm.trans empty

end Follow

/-- A page of the API is a page of the query's rows. -/
theorem listDomains_eq {Item : Type} (engine : SearchEngine) (resource : Domain → Item)
    (application : Application) {filter : ListFilter} (view : Database)
    (short : ∀ text ∈ filter.reference, text.length ≤ maxReferenceQuery) {size : Nat}
    (positive : 1 ≤ size) (bounded : size ≤ maxPageSize) (offset : Nat) :
    listDomains engine resource application filter size offset view =
      some (rowsPage ((listQuery engine application filter none view).map resource) size offset) := by
  have accepted : (filter.reference.all fun text => decide (text.length ≤ maxReferenceQuery)) = true := by
    cases reference : filter.reference with
    | none => rfl
    | some text => exact decide_eq_true (short text reference)
  have blank : (strip "").isEmpty = true := rfl
  rw [listDomains, if_pos ⟨accepted, by omega, by omega, by omega⟩]
  have clamped : max (1 : Int) (min (size : Int) (maxPageSize : Nat)) = size := by omega
  have start : max (0 : Int) (offset : Int) = offset := by omega
  simp only [pageDomains, clamped, start, Int.toNat_natCast, Option.getD_none, blank, if_true,
    rowsPage, List.map_take, List.map_drop, List.length_map]
  have lookahead : ((size : Int) + 1).toNat = size + 1 := by omega
  rw [lookahead, List.take_take, Nat.min_eq_left (Nat.le_succ size)]
  congr 1
  refine DomainPage.mk.injEq .. |>.mpr ⟨rfl, rfl, rfl, ?_⟩
  rw [List.length_take, List.length_drop]
  generalize (listQuery engine application filter none view).length = count
  by_cases more : offset + size < count
  · rw [if_pos more, if_pos (decide_eq_true (by omega))]
  · rw [if_neg more, if_neg (by rw [decide_eq_true_iff]; omega)]

/-- Following `next_offset` from 0 ends, and lists each matching domain once, in order; the last
page is the only one without a next offset, and empty only when nothing matches. -/
theorem pages_list_once {Item : Type} (engine : SearchEngine) (resource : Domain → Item)
    (application : Application) {filter : ListFilter} (view : Database)
    (short : ∀ text ∈ filter.reference, text.length ≤ maxReferenceQuery) {size : Nat}
    (positive : 1 ≤ size) (bounded : size ≤ maxPageSize) :
    ∃ (matching : List Domain) (pages : List (DomainPage Item)),
      matching.Perm (view.domains.filter (filter.admits application)) ∧
      matching.Pairwise Domain.before ∧
      (∀ fuel, matching.length < fuel →
        followPages (fun offset => listDomains engine resource application filter size offset view)
          fuel 0 = some pages) ∧
      pages.flatMap (·.items) = matching.map resource ∧
      (filter.includeDeleted = false → ∀ fuel, matching.length < fuel →
        iterDomains engine resource application filter.reference filter.status size view fuel =
          some (matching.map resource)) ∧
      ∃ front last, pages = front ++ [last] ∧ last.nextOffset = none ∧ last.items.length ≤ size ∧
        (last.items = [] → matching = []) ∧
        ∀ page ∈ front, page.nextOffset ≠ none ∧ page.items.length = size := by
  let request : Int → Option (DomainPage Item) := fun offset =>
    listDomains engine resource application filter size offset view
  have answers : ∀ offset : Nat, request offset =
      some (rowsPage ((listQuery engine application filter none view).map resource) size offset) :=
    listDomains_eq engine resource application view short positive bounded
  obtain ⟨pages, followed, all⟩ := followPages_rows positive answers
    ((listQuery engine application filter none view).length + 1) 0
    (by rw [List.length_map]; omega)
  refine ⟨listQuery engine application filter none view, pages, listQuery_perm engine application
    filter view, listQuery_ordered engine application filter none view, fun fuel enough => ?_,
    all.items, fun live fuel enough => ?_, ?_⟩
  · exact followPages_mono followed enough
  · have whole : ({ reference := filter.reference, status := filter.status } : ListFilter) = filter := by
      rw [← live]
    have read : followPages request fuel 0 = some pages := followPages_mono followed enough
    rw [iterDomains, whole]
    exact (congrArg (Option.map _) read).trans (congrArg some all.items)
  · obtain ⟨front, last, shape, none, few, some_, fronts⟩ := all.last
    refine ⟨front, last, shape, none, few, fun empty => ?_, fronts⟩
    exact List.map_eq_nil_iff.mp (some_ empty)

/-- Three domains in pages of one: three pages, the last without a next offset. -/
def pagedRows : Database where
  domains := [0, 2, 1].map fun number =>
    { id := number
      applicationId := 1
      hostname := "forms.example.com"
      reference := "workspace"
      createdAt := 0
      updatedAt := 0 }

def sampleEngine : SearchEngine where
  lower := lower
  sqlLower := lower

theorem pages_list_once_pagedRows :
    ∃ matching : List Domain, matching.Perm (pagedRows.domains.filter
        (ListFilter.admits {} sampleApplication)) ∧
      matching.map Domain.id = [0, 1, 2] := by
  obtain ⟨matching, pages, shuffled, -, -, -, yields, -⟩ :=
    pages_list_once sampleEngine Domain.id sampleApplication pagedRows
      (show ∀ text ∈ (ListFilter.mk none none false).reference, text.length ≤ maxReferenceQuery from
        fun _ none => nomatch none) (le_refl 1) (by decide)
  refine ⟨matching, shuffled, ?_⟩
  have count : matching.length = 3 := by
    rw [shuffled.length_eq]
    decide
  have listed : iterDomains sampleEngine Domain.id sampleApplication none none 1 pagedRows 4 =
      some [0, 1, 2] := by
    decide +kernel
  exact Option.some.inj ((yields rfl 4 (by omega)).symm.trans listed)

/-! ## Searching -/

/-- `needle in text`. -/
def contains (needle text : String) : Bool := decide (needle.toList <:+: text.toList)

/-- The database's `lower` is that of Python on the references; where `LIKE` ignores the case of
ASCII letters, hostnames have no capitals and `str.lower` leaves none. -/
structure SearchEngine.Lawful (engine : SearchEngine) (view : Database) : Prop where
  sqlLower : ∀ domain ∈ view.domains, engine.sqlLower domain.reference = engine.lower domain.reference
  lowered : engine.foldsCase = true → ∀ text, ∀ character ∈ (engine.lower text).toList,
    character.toLower = character
  hostname : engine.foldsCase = true → ∀ domain ∈ view.domains,
    ∀ character ∈ domain.hostname.toList, character.toLower = character

end CustomDomain
