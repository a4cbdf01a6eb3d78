import Onadata.Lib.PyText
import Onadata.Libs.Pagination

/-!
# `Onadata.Proofs.Apps.Api.PageWalk`: what following the next links gives

A reader of a form below the retrieval threshold asks for the first page and follows the `next`
links. The sizes of the pages are bounded, the size in the links is not, and the links have no
query.

* `walksOnce_iff`: when the walk gives each submission of a listing without a query once.
* `walksOnce_query_iff`: with a query it does when one page holds all that match, or all do.
-/

set_option autoImplicit false

namespace Onadata.Proofs

open Onadata Onadata.Lib

section
variable {Row : Type} (py : IntRuntime) (settings : PageSettings) (form : PagedForm Row)

/-- The walk from a request ends without an error, and gives each submission of its listing once. -/
def WalksOnce (request : PageRequest) : Prop :=
  ∃ rows, Walk (getPage py settings form) 0 request (.ok rows) ∧
    rows.Perm (form.rows.filter (form.selects request.query))

/-- The request asks for the first page. -/
def FirstPage (params : PageParams) : Prop :=
  ∀ text, params.page = some text → text ≠ "last" ∧ py.int text = some 1

/-- The most rows on a page, when the links have a size. -/
def rowsOnPage (size : Nat) : Nat :=
  if 0 < settings.maxPageSize then min size settings.maxPageSize else size

/-- The number of the pages that the links lead to. -/
def linkedPages (records size : Nat) : Nat :=
  max 1 ((records + size - 1) / size)

/-- The pages have room for some rows. -/
def PagesHold (params : PageParams) (rows : Nat) : Prop :=
  match params.pageSize with
  | none => rows ≤ settings.pageSize.1
  | some text =>
      match py.int text with
      | none => rows ≤ settings.pageSize.1
      | some size => 0 < size ∧
          rows ≤ linkedPages form.numOfSubmissions size.toNat * rowsOnPage settings size.toNat

/-- Without parameters there is one page. Else the counter has to be high enough, and the pages
have to have room for all rows. -/
def PagesReach (params : PageParams) (rows : Nat) : Prop :=
  params = {} ∨
    (form.numOfSubmissions = 0 ∨ rows ≤ form.numOfSubmissions) ∧
      PagesHold py settings form params rows

/-- The rows that the pages can show: as many as the counter says. -/
def shownRows (rows : List Row) : List Row :=
  if form.numOfSubmissions = 0 then rows else rows.take form.numOfSubmissions

variable {py settings form}

theorem pagesHold_of_none {params : PageParams} {rows : Nat} (h : params.pageSize = none) :
    PagesHold py settings form params rows ↔ rows ≤ settings.pageSize.1 := by
  unfold PagesHold
  rw [h]

theorem pagesHold_of_unread {params : PageParams} {rows : Nat} {text : String}
    (h : params.pageSize = some text) (hint : py.int text = none) :
    PagesHold py settings form params rows ↔ rows ≤ settings.pageSize.1 := by
  unfold PagesHold
  simp only [h, hint]

theorem pagesHold_of_size {params : PageParams} {rows : Nat} {text : String} {size : Int}
    (h : params.pageSize = some text) (hint : py.int text = some size) :
    PagesHold py settings form params rows ↔ 0 < size ∧
      rows ≤ linkedPages form.numOfSubmissions size.toNat * rowsOnPage settings size.toNat := by
  unfold PagesHold
  simp only [h, hint]

/-! ### One page -/

theorem rowsOnPage_le (size : Nat) : rowsOnPage settings size ≤ size := by
  unfold rowsOnPage
  split <;> omega

/-- A size that the paginator takes. -/
theorem getD_positiveInt {text : String} {size : Int} (h : py.int text = some size)
    (hpos : 0 < size) (default : PageSize) :
    ((positiveInt py settings text).getD default).1 = rowsOnPage settings size.toNat := by
  have hnat : 0 < size.toNat := by omega
  unfold positiveInt rowsOnPage
  simp only [h, hnat, dite_true]
  split <;> rfl

theorem positiveInt_of_le {text : String} {size : Int} (h : py.int text = some size)
    (hle : size ≤ 0) : positiveInt py settings text = none := by
  have hnat : ¬ 0 < size.toNat := by omega
  unfold positiveInt
  simp only [h, hnat, dite_false]

/-- The first rows of a page end with the counter. -/
theorem slice_shownRows (rows : List Row) (size : PageSize) (bottom top : Nat) :
    slice rows bottom
        (if (CountOverridablePaginator.mk rows size form.numOfSubmissions).count ≤ top then
          (CountOverridablePaginator.mk rows size form.numOfSubmissions).count else top) =
      slice (shownRows form rows) bottom top := by
  unfold CountOverridablePaginator.count shownRows slice
  by_cases hzero : form.numOfSubmissions = 0
  · simp only [hzero, if_true]
    by_cases hle : rows.length ≤ top
    · rw [if_pos hle, List.take_length, List.take_of_length_le hle]
    · rw [if_neg hle]
  · simp only [hzero, if_false]
    rw [List.take_take]
    by_cases hle : form.numOfSubmissions ≤ top
    · rw [if_pos hle, Nat.min_eq_right hle]
    · rw [if_neg hle, Nat.min_eq_left (by omega)]

/-- The number of parts of a size: a part is one of them when rows stand before its end. -/
theorem le_ceil_iff {number size rows : Nat} (hnumber : 0 < number) (hsize : 0 < size) :
    number ≤ (rows + size - 1) / size ↔ (number - 1) * size < rows := by
  obtain ⟨before, rfl⟩ : ∃ before, number = before + 1 := ⟨number - 1, by omega⟩
  rw [Nat.le_div_iff_mul_le hsize, Nat.add_mul, Nat.add_sub_cancel]
  omega

variable {rows : List Row} {size : PageSize}

/-- A page with rows before its end, and the first page. -/
theorem page_of_lt {number : Nat} (hpos : 0 < number)
    (hlt : (number - 1) * size.1 <
      max 1 (CountOverridablePaginator.mk rows size form.numOfSubmissions).count) :
    (CountOverridablePaginator.mk rows size form.numOfSubmissions).page (some number) =
      .ok (slice (shownRows form rows) ((number - 1) * size.1) (number * size.1)) := by
  have hle : number ≤
      (CountOverridablePaginator.mk rows size form.numOfSubmissions).numPages :=
    (le_ceil_iff hpos size.2).mpr hlt
  have htop : (number - 1) * size.1 + size.1 = number * size.1 := by
    rw [← Nat.succ_mul, Nat.succ_eq_add_one, Nat.sub_add_cancel hpos]
  unfold CountOverridablePaginator.page
  simp only []
  rw [if_neg (by omega), Int.toNat_natCast, slice_shownRows, htop]

/-- A page behind the last one. -/
theorem page_of_ge {number : Nat} (hpos : 0 < number)
    (hge : max 1 (CountOverridablePaginator.mk rows size form.numOfSubmissions).count ≤
      (number - 1) * size.1) :
    (CountOverridablePaginator.mk rows size form.numOfSubmissions).page (some number) =
      .error .notFound := by
  have hgt : ¬ number ≤
      (CountOverridablePaginator.mk rows size form.numOfSubmissions).numPages := by
    intro hle
    have hlt := (le_ceil_iff hpos size.2).mp hle
    exact absurd hlt (by omega)
  unfold CountOverridablePaginator.page
  simp only []
  rw [if_pos (by omega)]

/-! ### The responses -/

/-- Below the threshold the rows are ordered, in every response. -/
theorem objectList_eq (hordered : form.numOfSubmissions < settings.retrievalThreshold.1) (k : Nat)
    (query : Option String) :
    form.objectList settings k query =
      (form.rows.filter (form.selects query)).mergeSort
        fun row row' => form.id row ≤ form.id row' := by
  unfold PagedForm.objectList
  exact if_pos hordered

/-- A response with the parameters of a page: its rows, or what the paginator raises. -/
theorem getPage_asked {k : Nat} {request : PageRequest} {links : PageLinks}
    {page : Except PageError (List Row)}
    (hasked : (request.params.page.isSome || request.params.pageSize.isSome) = true)
    (hlinks : setPaginationHeaders py settings (form.numOfRecords request.query) request.params =
      .ok links)
    (hpage : paginateQueryset py settings settings.pageSize request.params
      (form.objectList settings k request.query) form.numOfSubmissions = page) :
    getPage py settings form k request =
      page.map fun page => ⟨page, links.next.map fun link => { params := link.params }⟩ := by
  unfold getPage getData
  simp only [hasked, Bool.true_or, if_true, hlinks]
  show Except.map _ (paginateQueryset py settings settings.pageSize request.params
      (form.objectList settings k request.query) form.numOfSubmissions >>= _) = _
  rw [hpage]
  cases page <;> rfl

/-- The first page is the one that is asked for. -/
theorem FirstPage.elim_page {params : PageParams} (h : FirstPage py params) :
    params.page.elim (some 1) py.int = some 1 := by
  cases hparam : params.page with
  | none => rfl
  | some text => exact (h text hparam).2

/-- The headers of a page with its size. -/
theorem setPaginationHeaders_next {records : Nat} {params : PageParams} {page size : Int}
    (hpage : params.page.elim (some 1) py.int = some page)
    (hsize : params.pageSize.elim (some (settings.retrievalThreshold.1 : Int)) py.int = some size)
    (hne : size ≠ 0) :
    ∃ links, setPaginationHeaders py settings records params = .ok links ∧
      links.next = if page * size < records then some ⟨page + 1, size⟩ else none := by
  unfold setPaginationHeaders
  rw [hpage, hsize]
  simp only [if_neg hne]
  exact ⟨_, rfl, rfl⟩

/-- The rows of the first page, of the size that is used. -/
theorem paginateQueryset_first {default : PageSize} {params : PageParams}
    (hfirst : FirstPage py params) :
    paginateQueryset py settings default params rows form.numOfSubmissions =
      .ok (slice (shownRows form rows) 0 (getPageSize py settings default params).1) := by
  have hpage := @page_of_lt _ form rows (getPageSize py settings default params) 1 (by omega)
    (by omega)
  rw [Nat.sub_self, Nat.zero_mul, Nat.one_mul] at hpage
  unfold paginateQueryset
  cases hparam : params.page with
  | none => exact hpage
  | some text =>
      obtain ⟨hne, hint⟩ := hfirst text hparam
      simp only [if_neg hne, hint]
      exact hpage

@[simp]
theorem numOfRecords_none : form.numOfRecords none = form.numOfSubmissions := rfl

/-! ### The pages of the links -/

/-- The rows of a listing, by their ids. -/
def sortedRows (form : PagedForm Row) (query : Option String) : List Row :=
  (form.rows.filter (form.selects query)).mergeSort fun row row' => form.id row ≤ form.id row'

/-- What the paginator counts for a listing without a query. -/
def pagedRows (form : PagedForm Row) : Nat :=
  if form.numOfSubmissions = 0 then (sortedRows form none).length else form.numOfSubmissions

/-- The request for a link. -/
def linkRequest (page size : Int) : PageRequest :=
  { params := (PageLink.mk page size).params }

theorem getPageSize_link {page size : Int} :
    (getPageSize py settings settings.pageSize (linkRequest page size).params).1 =
      if 0 < size then rowsOnPage settings size.toNat else settings.pageSize.1 := by
  have hint := py.int_toString size
  show ((positiveInt py settings (toString size)).getD settings.pageSize).1 = _
  split
  · exact getD_positiveInt hint ‹_› _
  · rw [positiveInt_of_le hint (by omega)]
    rfl

/-- The rows of a linked page are those of `page` for the number of it. -/
theorem paginateQueryset_link {page size : Int} :
    paginateQueryset py settings settings.pageSize (linkRequest page size).params rows
        form.numOfSubmissions =
      (CountOverridablePaginator.mk rows
        (getPageSize py settings settings.pageSize (linkRequest page size).params)
        form.numOfSubmissions).page (some page) := by
  have hint := py.int_toString page
  have hne : toString page ≠ "last" := by
    intro heq
    rw [heq, py.int_last] at hint
    cases hint
  unfold paginateQueryset linkRequest PageLink.params
  simp only [if_neg hne, hint]

/-- The headers of a linked page. -/
theorem setPaginationHeaders_link {records : Nat} {page size : Int} (hne : size ≠ 0) :
    ∃ links, setPaginationHeaders py settings records (linkRequest page size).params = .ok links ∧
      links.next = if page * size < records then some ⟨page + 1, size⟩ else none :=
  setPaginationHeaders_next (py.int_toString page) (py.int_toString size) hne

section Ordered
variable (hordered : form.numOfSubmissions < settings.retrievalThreshold.1)
include hordered

/-- A linked page that is there. -/
theorem getPage_link {k page : Nat} {size : Int} {perPage : Nat} (hpage : 0 < page)
    (hne : size ≠ 0)
    (hperPage : perPage = if 0 < size then rowsOnPage settings size.toNat else settings.pageSize.1)
    (hlt : (page - 1) * perPage < max 1 (pagedRows form)) :
    getPage py settings form k (linkRequest page size) =
      .ok ⟨slice (shownRows form (sortedRows form none)) ((page - 1) * perPage) (page * perPage),
        if page * size < form.numOfSubmissions then some (linkRequest (page + 1 : Nat) size)
        else none⟩ := by
  obtain ⟨links, hlinks, hnext⟩ := @setPaginationHeaders_link py settings
    form.numOfSubmissions page size hne
  have hrows : paginateQueryset py settings settings.pageSize (linkRequest page size).params
      (form.objectList settings k none) form.numOfSubmissions =
      .ok (slice (shownRows form (sortedRows form none)) ((page - 1) * perPage)
        (page * perPage)) := by
    rw [paginateQueryset_link, objectList_eq hordered, hperPage,
      ← @getPageSize_link py _ page _]
    refine page_of_lt hpage ?_
    rw [getPageSize_link, ← hperPage]
    exact hlt
  rw [@getPage_asked _ _ _ _ _ (linkRequest page size) _ _ rfl hlinks hrows, hnext]
  split <;> rfl

/-- A linked page that is not there. -/
theorem getPage_link_error {k page : Nat} {size : Int} {perPage : Nat} (hpage : 0 < page)
    (hne : size ≠ 0)
    (hperPage : perPage = if 0 < size then rowsOnPage settings size.toNat else settings.pageSize.1)
    (hge : max 1 (pagedRows form) ≤ (page - 1) * perPage) :
    getPage py settings form k (linkRequest page size) = .error .notFound := by
  obtain ⟨links, hlinks, -⟩ := @setPaginationHeaders_link py settings
    form.numOfSubmissions page size hne
  have hrows : paginateQueryset py settings settings.pageSize (linkRequest page size).params
      (form.objectList settings k none) form.numOfSubmissions = .error .notFound := by
    rw [paginateQueryset_link, objectList_eq hordered]
    refine page_of_ge hpage ?_
    rw [getPageSize_link, ← hperPage]
    exact hge
  exact @getPage_asked _ _ _ _ _ (linkRequest page size) _ _ rfl hlinks hrows

/-! ### The walk -/

omit hordered in
/-- A page is linked when rows of the form stand before it. -/
theorem le_linkedPages_iff {page size : Nat} (hpage : 1 < page) (hsize : 0 < size) :
    page ≤ linkedPages form.numOfSubmissions size ↔
      (page - 1) * size < form.numOfSubmissions := by
  unfold linkedPages
  rw [← le_ceil_iff (by omega) hsize]
  omega

/-- The walk from a page behind the first one. -/
theorem walk_linked {k page size : Nat} (hpage : 0 < page) (hsize : 0 < size)
    (hlt : page * size < form.numOfSubmissions) :
    Walk (getPage py settings form) k (linkRequest (page + 1 : Nat) size)
      (.ok (slice (shownRows form (sortedRows form none)) (page * rowsOnPage settings size)
        (linkedPages form.numOfSubmissions size * rowsOnPage settings size))) := by
  have hlinked : page + 1 ≤ linkedPages form.numOfSubmissions size :=
    (le_linkedPages_iff (by omega) hsize).mpr hlt
  obtain ⟨count, hcount⟩ := Nat.exists_eq_add_of_le hlinked
  have hperPage : rowsOnPage settings size =
      if (0 : Int) < size then rowsOnPage settings (size : Int).toNat
        else settings.pageSize.1 := by
    rw [if_pos (by omega), Int.toNat_natCast]
  have hpaged : ∀ rows < form.numOfSubmissions, rows < max 1 (pagedRows form) := by
    intro rows hrows
    unfold pagedRows
    rw [if_neg (by omega)]
    omega
  -- each of the pages is there, since it has at most `size` rows
  have hfetch : ∀ i ≤ count, getPage py settings form (k + i)
      (linkRequest (page + i + 1 : Nat) size) =
        .ok ⟨slice (shownRows form (sortedRows form none)) ((page + i) * rowsOnPage settings size)
            ((page + i + 1) * rowsOnPage settings size),
          if i < count then some (linkRequest (page + (i + 1) + 1 : Nat) size) else none⟩ := by
    intro i hi
    have hbefore : (page + i) * size < form.numOfSubmissions :=
      (@le_linkedPages_iff _ _ (page + i + 1) _ (by omega) hsize).mp (by omega)
    have hrows : (page + i) * rowsOnPage settings size < form.numOfSubmissions :=
      Nat.lt_of_le_of_lt (Nat.mul_le_mul_left _ (rowsOnPage_le size)) hbefore
    have hnext : ((page + i + 1 : Nat) : Int) * (size : Int) < form.numOfSubmissions ↔
        i < count := by
      have hiff := @le_linkedPages_iff _ form (page + i + 1 + 1) _ (by omega) hsize
      rw [Nat.add_sub_cancel] at hiff
      rw [← Int.natCast_mul, Int.ofNat_lt, ← hiff, hcount]
      omega
    have hfound := @getPage_link _ py _ _ hordered (k + i) (page + i + 1) (size : Int) _
      (by omega) (by omega) hperPage (hpaged _ hrows)
    simp only [hnext, Nat.add_sub_cancel] at hfound
    exact hfound
  have hwalk := @Walk.of_pages _ _ _ (getPage py settings form) count k
    (fun i => linkRequest (page + i + 1 : Nat) size)
    (fun i => slice (shownRows form (sortedRows form none))
      ((page + i) * rowsOnPage settings size) ((page + i + 1) * rowsOnPage settings size))
    (fun i hi => by rw [hfetch i (by omega), if_pos hi])
    (by rw [hfetch count (by omega), if_neg (by omega)])
  rw [flatMap_slice, show page + (count + 1) = linkedPages form.numOfSubmissions size by omega]
    at hwalk
  exact hwalk

/-- The first page of a size in the links. -/
theorem getPage_first {k : Nat} {query : Option String} {params : PageParams} {size : Int}
    (hasked : (params.page.isSome || params.pageSize.isSome) = true)
    (hfirst : FirstPage py params)
    (hsize : params.pageSize.elim (some (settings.retrievalThreshold.1 : Int)) py.int = some size)
    (hne : size ≠ 0) :
    getPage py settings form k { query := query, params := params } =
      .ok ⟨slice (shownRows form (sortedRows form query)) 0
          (getPageSize py settings settings.pageSize params).1,
        if size < form.numOfRecords query then some (linkRequest (1 + 1 : Nat) size)
        else none⟩ := by
  obtain ⟨links, hlinks, hnext⟩ := @setPaginationHeaders_next py settings
    (form.numOfRecords query) params 1 size hfirst.elim_page hsize hne
  have hrows := @paginateQueryset_first _ _ settings form
    (form.objectList settings k query) settings.pageSize _ hfirst
  rw [Int.one_mul] at hnext
  rw [@getPage_asked _ _ _ _ _ { query := query, params := params } _ _ hasked hlinks hrows, hnext,
    objectList_eq hordered]
  split <;> rfl

/-- A header without links, as a size is no number. -/
theorem getPage_first_unread {k : Nat} {params : PageParams} {text : String}
    (hfirst : FirstPage py params) (htext : params.pageSize = some text)
    (hint : py.int text = none) :
    getPage py settings form k { params := params } =
      .ok ⟨slice (shownRows form (sortedRows form none)) 0 settings.pageSize.1, none⟩ := by
  have hlinks : setPaginationHeaders py settings form.numOfSubmissions params = .ok {} := by
    unfold setPaginationHeaders
    rw [htext, Option.elim_some, hint]
    split
    · contradiction
    · rfl
  have hsize : getPageSize py settings settings.pageSize params = settings.pageSize := by
    unfold getPageSize positiveInt
    simp only [htext, Option.bind_some, hint, Option.getD_none]
  have hrows := @paginateQueryset_first _ _ settings form
    (form.objectList settings k none) settings.pageSize _ hfirst
  rw [hsize] at hrows
  rw [@getPage_asked _ _ _ _ _ { params := params } _ _ (by simp [htext]) hlinks hrows,
    objectList_eq hordered]
  rfl

/-- A page size below zero is linked again and again, until a page is not there. -/
theorem walk_negative {k page : Nat} {size : Int} (hpage : 0 < page) (hneg : size < 0) :
    Walk (getPage py settings form) k (linkRequest page size) (.error .notFound) := by
  have hperPage : settings.pageSize.1 =
      if 0 < size then rowsOnPage settings size.toNat else settings.pageSize.1 := by
    rw [if_neg (by omega)]
  have hpos := settings.pageSize.2
  -- the next page has fewer rows behind it
  induction hleft : max 1 (pagedRows form) - (page - 1) * settings.pageSize.1
    using Nat.strongRecOn generalizing k page with
  | ind left ih =>
      by_cases hlt : (page - 1) * settings.pageSize.1 < max 1 (pagedRows form)
      · have hfetch := @getPage_link _ py _ _ hordered k _ _ _ hpage (by omega) hperPage hlt
        have hnext : (page : Int) * size < form.numOfSubmissions := by
          have := Int.mul_neg_of_pos_of_neg (Int.natCast_pos.mpr hpage) hneg
          omega
        rw [if_pos hnext] at hfetch
        have hmore : page * settings.pageSize.1 =
            (page - 1) * settings.pageSize.1 + settings.pageSize.1 := by
          rw [← Nat.succ_mul, Nat.succ_eq_add_one, Nat.sub_add_cancel hpage]
        have hrest := ih (max 1 (pagedRows form) - (page + 1 - 1) * settings.pageSize.1)
          (by rw [Nat.add_sub_cancel, hmore]; omega) (k := k + 1) (by omega) rfl
        exact .more hfetch rfl hrest
      · exact .failed (getPage_link_error hordered hpage (by omega) hperPage (by omega))

end Ordered

/-! ### When the walk is complete -/

/-- The walk is known, so that only its rows matter. -/
theorem walksOnce_iff_of_walk {request : PageRequest} {rows : List Row}
    (h : Walk (getPage py settings form) 0 request (.ok rows)) :
    WalksOnce py settings form request ↔
      rows.Perm (form.rows.filter (form.selects request.query)) := by
  constructor
  · rintro ⟨rows', hrows', hperm⟩
    cases h.unique hrows'
    exact hperm
  · exact fun hperm => ⟨rows, h, hperm⟩

theorem not_walksOnce_of_walk {request : PageRequest} {error : PageError}
    (h : Walk (getPage py settings form) 0 request (.error error)) :
    ¬ WalksOnce py settings form request := by
  rintro ⟨rows, hrows, -⟩
  cases h.unique hrows

theorem sortedRows_perm (query : Option String) :
    (sortedRows form query).Perm (form.rows.filter (form.selects query)) :=
  List.mergeSort_perm _ _

/-- The first rows that are shown are all rows, when the counter and the room are enough. -/
theorem take_shownRows_perm_iff (query : Option String) (room : Nat) :
    (slice (shownRows form (sortedRows form query)) 0 room).Perm
        (form.rows.filter (form.selects query)) ↔
      (form.numOfSubmissions = 0 ∨
        (form.rows.filter (form.selects query)).length ≤ form.numOfSubmissions) ∧
        (form.rows.filter (form.selects query)).length ≤ room := by
  have hperm := @sortedRows_perm _ form query
  rw [← hperm.length_eq]
  have hslice : slice (shownRows form (sortedRows form query)) 0 room =
      (shownRows form (sortedRows form query)).take room := List.drop_zero
  rw [hslice]
  constructor
  · intro h
    have hlength := (h.trans hperm.symm).length_eq
    unfold shownRows at hlength
    by_cases hzero : form.numOfSubmissions = 0
    · rw [if_pos hzero, List.length_take] at hlength
      omega
    · rw [if_neg hzero, List.length_take, List.length_take] at hlength
      omega
  · rintro ⟨hcounter, hroom⟩
    have hshown : shownRows form (sortedRows form query) = sortedRows form query := by
      unfold shownRows
      split
      · rfl
      · exact List.take_of_length_le (by omega)
    rw [hshown, List.take_of_length_le hroom]
    exact hperm

section Complete
variable (hordered : form.numOfSubmissions < settings.retrievalThreshold.1)
include hordered

/-- A first page of a size above zero, and the pages behind it. -/
theorem walk_first {query : Option String} {params : PageParams} {text : String} {size : Nat}
    (hfirst : FirstPage py params) (htext : params.pageSize = some text)
    (hint : py.int text = some size) (hpos : 0 < size)
    (hcount : form.numOfRecords query ≤ form.numOfSubmissions) :
    Walk (getPage py settings form) 0 { query := query, params := params }
      (.ok (slice (shownRows form (sortedRows form query)) 0 (rowsOnPage settings size) ++
        if size < form.numOfRecords query then
          slice (shownRows form (sortedRows form none)) (rowsOnPage settings size)
            (linkedPages form.numOfSubmissions size * rowsOnPage settings size)
        else [])) := by
  have hperPage : (getPageSize py settings settings.pageSize params).1 =
      rowsOnPage settings size := by
    unfold getPageSize
    rw [htext, Option.bind_some, getD_positiveInt hint (by omega), Int.toNat_natCast]
  have hfetch := @getPage_first _ _ _ _ hordered 0 query params size
    (by rw [htext, Option.isSome_some, Bool.or_true]) hfirst (by rw [htext]; exact hint) (by omega)
  rw [hperPage] at hfetch
  by_cases hnext : size < form.numOfRecords query
  · rw [if_pos (by omega)] at hfetch
    rw [if_pos hnext]
    have hrest := @walk_linked _ py _ _ hordered 1 1 _ (by omega) hpos (by omega)
    rw [Nat.one_mul] at hrest
    exact .more hfetch rfl hrest
  · rw [if_neg (by omega)] at hfetch
    rw [if_neg hnext, List.append_nil]
    exact .last hfetch rfl

omit hordered in
/-- The first page and those behind it are the first rows. -/
theorem walk_first_rows {size : Nat} (hpos : 0 < size) :
    (slice (shownRows form (sortedRows form none)) 0 (rowsOnPage settings size) ++
        if size < form.numOfRecords none then
          slice (shownRows form (sortedRows form none)) (rowsOnPage settings size)
            (linkedPages form.numOfSubmissions size * rowsOnPage settings size)
        else []) =
      slice (shownRows form (sortedRows form none)) 0
        (linkedPages form.numOfSubmissions size * rowsOnPage settings size) := by
  have hlinked := @le_linkedPages_iff _ form 2 _ (by omega) hpos
  have hone : 1 ≤ linkedPages form.numOfSubmissions size := by
    unfold linkedPages
    omega
  rw [numOfRecords_none]
  by_cases hnext : size < form.numOfSubmissions
  · rw [if_pos hnext]
    exact slice_append_slice _ (Nat.zero_le _) (Nat.le_mul_of_pos_left _ hone)
  · have hlast : linkedPages form.numOfSubmissions size = 1 := by
      by_contra hne
      exact hnext (by simpa using hlinked.mp (by omega))
    rw [if_neg hnext, List.append_nil, hlast, Nat.one_mul]

/-- Without a size there is one page, since the links have the threshold as the size. -/
theorem walksOnce_withoutSize_iff {params : PageParams} (hfirst : FirstPage py params)
    (hne : params ≠ {}) (hnone : params.pageSize = none) :
    WalksOnce py settings form { params := params } ↔
      (form.numOfSubmissions = 0 ∨
        (form.rows.filter (form.selects none)).length ≤ form.numOfSubmissions) ∧
        (form.rows.filter (form.selects none)).length ≤ settings.pageSize.1 := by
  have hasked : (params.page.isSome || params.pageSize.isSome) = true := by
    cases hpage : params.page with
    | none => exact absurd (by cases params; simp_all) hne
    | some text => rfl
  have hthreshold := settings.retrievalThreshold.2
  have hfetch := @getPage_first _ _ _ _ hordered 0 none _
    (settings.retrievalThreshold.1 : Int) hasked hfirst (by rw [hnone]; rfl) (by omega)
  have hlast : ¬ (settings.retrievalThreshold.1 : Int) < form.numOfRecords none := by
    show ¬ (settings.retrievalThreshold.1 : Int) < form.numOfSubmissions
    omega
  have hsize : getPageSize py settings settings.pageSize params = settings.pageSize := by
    unfold getPageSize
    rw [hnone]
    rfl
  rw [if_neg hlast, hsize] at hfetch
  rw [walksOnce_iff_of_walk (.last hfetch rfl)]
  exact take_shownRows_perm_iff none _

/-- A size of zero is divided by, and one below zero leads to a page that is not there. -/
theorem not_walksOnce_of_nonpos {params : PageParams} {text : String} {size : Int}
    (hfirst : FirstPage py params) (htext : params.pageSize = some text)
    (hint : py.int text = some size) (hle : size ≤ 0) :
    ¬ WalksOnce py settings form { params := params } := by
  have hasked : (params.page.isSome || params.pageSize.isSome) = true := by
    rw [htext, Option.isSome_some, Bool.or_true]
  by_cases hzero : size = 0
  · have hlinks : setPaginationHeaders py settings form.numOfSubmissions params =
        .error .zeroDivisionError := by
      unfold setPaginationHeaders
      rw [hfirst.elim_page, htext, Option.elim_some, hint]
      exact if_pos hzero
    refine @not_walksOnce_of_walk _ _ _ _ _ PageError.zeroDivisionError (.failed ?_)
    unfold getPage getData
    simp only [hasked, Bool.true_or, if_true]
    show Except.map _ (setPaginationHeaders py settings form.numOfSubmissions params >>= _) = _
    rw [hlinks]
    rfl
  · have hfetch := @getPage_first _ _ _ _ hordered 0 none params _ hasked hfirst
      (by rw [htext]; exact hint) hzero
    have hnext : size < form.numOfRecords none := by
      have := Int.natCast_nonneg (form.numOfRecords none)
      omega
    rw [if_pos hnext] at hfetch
    exact not_walksOnce_of_walk
      (.more hfetch rfl (@walk_negative _ _ _ _ hordered 1 2 _ (by omega) (by omega)))

/-- Without a query the walk gives each submission once, exactly when its pages reach all of
them. -/
theorem walksOnce_iff {params : PageParams} (hfirst : FirstPage py params) :
    WalksOnce py settings form { params := params } ↔
      PagesReach py settings form params (form.rows.filter (form.selects none)).length := by
  by_cases hempty : params = {}
  · -- nothing is asked for, and the listing is one response
    refine iff_of_true ⟨sortedRows form none, @Walk.last _ _ _ _ _ _ ⟨_, none⟩ ?_ rfl,
      sortedRows_perm none⟩ (Or.inl hempty)
    have hlarge : ¬ settings.retrievalThreshold.1 < form.numOfSubmissions := by omega
    unfold getPage getData
    rw [objectList_eq hordered, hempty]
    simp only [Option.isSome_none, Bool.or_self, hlarge, decide_false, Bool.false_eq_true,
      if_false]
    rfl
  · unfold PagesReach
    rw [or_iff_right hempty]
    cases htext : params.pageSize with
    | none =>
        rw [pagesHold_of_none htext]
        exact walksOnce_withoutSize_iff hordered hfirst hempty htext
    | some text =>
        cases hint : py.int text with
        | none =>
            rw [pagesHold_of_unread htext hint]
            have hfetch := getPage_first_unread hordered (k := 0) hfirst htext hint
            rw [walksOnce_iff_of_walk (.last hfetch rfl)]
            exact take_shownRows_perm_iff none _
        | some size =>
            rw [pagesHold_of_size htext hint]
            by_cases hpos : 0 < size
            · obtain ⟨size, rfl⟩ : ∃ nat : Nat, size = nat := ⟨size.toNat, by omega⟩
              rw [walksOnce_iff_of_walk (walk_first hordered hfirst htext hint (by omega)
                (Nat.le_refl _)),
                walk_first_rows (by omega)]
              rw [take_shownRows_perm_iff, Int.toNat_natCast, and_iff_right hpos]
            · refine iff_of_false ?_ fun h => hpos h.2.1
              exact not_walksOnce_of_nonpos hordered hfirst htext hint (by omega)

omit hordered in
/-- The rows that match are all rows, when they are as many. -/
theorem filter_length_eq_iff {query : String}
    (hsub : ∀ row ∈ form.rows, form.selects (some query) row = true →
      form.selects none row = true) :
    (form.rows.filter (form.selects none)).length =
        (form.rows.filter (form.selects (some query))).length ↔
      ∀ row ∈ form.rows, form.selects none row = true → form.selects (some query) row = true := by
  have htwice : form.rows.filter (form.selects (some query)) =
      (form.rows.filter (form.selects none)).filter (form.selects (some query)) := by
    rw [List.filter_filter]
    refine List.filter_congr fun row hrow => ?_
    cases hquery : form.selects (some query) row with
    | false => rfl
    | true => rw [hsub row hrow hquery, Bool.true_and]
  rw [htwice, eq_comm, List.length_filter_eq_length_iff]
  simp only [List.mem_filter, and_imp]

/-- With a query the walk gives each submission that matches once, exactly when one page holds them
all or every submission of the form matches: the links have no query. -/
theorem walksOnce_query_iff {query : String} {params : PageParams} {text : String} {size : Nat}
    (hfirst : FirstPage py params) (htext : params.pageSize = some text)
    (hint : py.int text = some size) (hpos : 0 < size)
    (hmax : settings.maxPageSize = 0 ∨ size ≤ settings.maxPageSize)
    (hsub : ∀ row ∈ form.rows, form.selects (some query) row = true →
      form.selects none row = true)
    (hcount : form.numOfSubmissions = (form.rows.filter (form.selects none)).length)
    (hqueryCount : form.numOfRecords (some query) =
      (form.rows.filter (form.selects (some query))).length) :
    WalksOnce py settings form { query := some query, params := params } ↔
      (form.rows.filter (form.selects (some query))).length ≤ size ∨
        ∀ row ∈ form.rows, form.selects none row = true →
          form.selects (some query) row = true := by
  have hmatching : (form.rows.filter (form.selects (some query))).length ≤
      form.numOfSubmissions := by
    rw [hcount, ← List.countP_eq_length_filter, ← List.countP_eq_length_filter]
    exact List.countP_mono_left hsub
  have hsize : rowsOnPage settings size = size := by
    unfold rowsOnPage
    split <;> omega
  have hlength : ∀ query, (sortedRows form query).length =
      (form.rows.filter (form.selects query)).length := fun query =>
    (sortedRows_perm query).length_eq
  have hshown : ∀ query, (form.rows.filter (form.selects query)).length ≤
      form.numOfSubmissions → shownRows form (sortedRows form query) = sortedRows form query := by
    intro query hle
    unfold shownRows
    split
    · rfl
    · exact List.take_of_length_le (by rw [hlength]; exact hle)
  have hwalk := @walk_first _ py _ _ hordered (some query) _ _ _ hfirst htext hint hpos (by omega)
  rw [hqueryCount, hsize, hshown _ hmatching, hshown none (by omega)] at hwalk
  rw [walksOnce_iff_of_walk hwalk]
  by_cases hfits : (form.rows.filter (form.selects (some query))).length ≤ size
  · refine iff_of_true ?_ (Or.inl hfits)
    rw [if_neg (by omega), List.append_nil]
    show ((sortedRows form (some query)).take size).Perm _
    rw [List.take_of_length_le (by rw [hlength]; exact hfits)]
    exact sortedRows_perm (some query)
  · rw [if_pos (by omega), or_iff_right hfits, ← filter_length_eq_iff hsub]
    -- the pages behind the first one are those of the whole form
    have hroom : form.numOfSubmissions ≤ linkedPages form.numOfSubmissions size * size := by
      have hmore := @le_linkedPages_iff _ form
        (linkedPages form.numOfSubmissions size + 1) _ (by unfold linkedPages; omega) hpos
      rw [Nat.add_sub_cancel] at hmore
      omega
    have hrest : slice (sortedRows form none) size
        (linkedPages form.numOfSubmissions size * size) = (sortedRows form none).drop size := by
      unfold slice
      rw [List.take_of_length_le (by rw [hlength, ← hcount]; exact hroom)]
    rw [hrest]
    show ((sortedRows form (some query)).take size ++ (sortedRows form none).drop size).Perm _ ↔ _
    constructor
    · intro hperm
      have heq := hperm.length_eq
      rw [List.length_append, List.length_take, List.length_drop, hlength, hlength] at heq
      change _ = (form.rows.filter (form.selects (some query))).length at heq
      omega
    · intro heq
      have hsame : form.rows.filter (form.selects (some query)) =
          form.rows.filter (form.selects none) := by
        refine List.filter_congr fun row hrow => Bool.eq_iff_iff.mpr ⟨hsub row hrow, ?_⟩
        exact (filter_length_eq_iff hsub).mp heq row hrow
      have hsorted : sortedRows form (some query) = sortedRows form none := by
        unfold sortedRows
        rw [hsame]
      rw [hsorted, List.take_append_drop, hsame]
      exact sortedRows_perm none

end Complete

end

/-! ### A form with three submissions -/

/-- The number of a list of digits. -/
def readDigits (chars : List Char) : Option Nat :=
  if chars ≠ [] ∧ chars.all Char.isDigit = true then some (Nat.ofDigitChars 10 chars 0) else none

/-- `int` of a text of digits, with or without a sign. -/
def readInt (text : String) : Option Int :=
  if text.toList.head? = some '-' then (readDigits text.toList.tail).map Int.negOfNat
  else (readDigits text.toList).map Int.ofNat

theorem readDigits_number (n : Nat) : readDigits (toString n).toList = some n := by
  unfold readDigits
  rw [if_pos ⟨number_ne_nil n, List.all_eq_true.mpr fun c hc => isDigit_of_mem_number hc⟩,
    toList_number, Nat.ofDigitChars_ten_toDigits]

theorem readInt_toString (n : Int) : readInt (toString n) = some n := by
  cases n with
  | ofNat n =>
      have htext : toString (Int.ofNat n) = toString n := rfl
      have hsign : (toString n).toList.head? ≠ some '-' := by
        intro hhead
        have hdigit := isDigit_of_mem_number (List.mem_of_head? hhead)
        exact absurd hdigit (by decide)
      unfold readInt
      rw [htext, if_neg hsign, readDigits_number]
      rfl
  | negSucc n =>
      have htext : (toString (Int.negSucc n)).toList = '-' :: (toString (n + 1)).toList := by
        show ("-" ++ toString (n + 1)).toList = _
        rw [String.toList_append]
        rfl
      unfold readInt
      rw [htext, List.head?_cons, if_pos rfl, List.tail_cons, readDigits_number]
      rfl

/-- `int` of the texts that are plain numbers. -/
def plainInt : IntRuntime where
  int := readInt
  int_toString := readInt_toString
  int_last := by decide

/-- The settings with the defaults. -/
def defaultPages : PageSettings := {}

/-- Three submissions, of which the query finds the first and the last one. -/
def threeSubmissions : PagedForm Nat where
  numOfSubmissions := 3
  rows := [12, 10, 11]
  id := Int.ofNat
  selects := fun query row => query.isNone || row ≠ 11
  queryCount := fun _ => 2
  answer := fun _ rows => rows
  ids_nodup := by decide
  answer_perm := fun _ rows => .refl rows

/-- Two pages reach the three submissions. -/
theorem walksOnce_threeSubmissions :
    WalksOnce plainInt defaultPages threeSubmissions
      { params := { page := some "1", pageSize := some "2" } } := by
  refine (walksOnce_iff (by decide) ?_).mpr (Or.inr ⟨Or.inr (by decide), ?_⟩)
  · intro text htext
    cases htext
    decide
  · refine (@pagesHold_of_size _ _ _ _ _ _ _ 2 rfl (by decide)).mpr ⟨by decide, ?_⟩
    decide

/-- One submission on a page is too few for the two that match. -/
theorem not_walksOnce_query_threeSubmissions :
    ¬ WalksOnce plainInt defaultPages threeSubmissions
      { query := some "visited", params := { page := some "1", pageSize := some "1" } } := by
  rw [@walksOnce_query_iff _ _ _ _ (by decide) _ _ "1" 1 ?_ rfl (by decide) (by decide)
    (Or.inr (by decide)) (by decide) (by decide) (by decide)]
  · decide
  · intro text htext
    cases htext
    decide

end Onadata.Proofs
