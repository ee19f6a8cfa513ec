import Gomer.Lib.Occurrence
import Gomer.Spaces.Pages
import Mathlib.Data.List.Forall2
import Mathlib.Data.List.TakeWhile
import Mathlib.Logic.Function.Basic

/-! Find/replace edits of a page: what `applyPageEdits` accepts, against edits whose `find` has one
position in the text it is applied to. -/
namespace Gomer.PageEdits

open HttpException Occurrence

/-! What the code counts and replaces, in terms of positions -/

section
variable {find : List Char}

theorem matchCount_spec (nonempty : find ≠ []) {fuel : Nat} {text : List Char}
    (enough : text.length ≤ fuel) :
    (matchCount find fuel text = 0 ↔ ∀ i, ¬ At find text i) ∧
      (matchCount find fuel text = 1 ↔ ∃ i, Clumped find text i) := by
  induction fuel generalizing text with
  | zero =>
    obtain rfl : text = [] := List.eq_nil_of_length_eq_zero (by omega)
    have nowhere := fun i => not_at_nil (i := i) nonempty
    refine ⟨⟨fun _ => nowhere, fun _ => rfl⟩, ⟨fun one => ?_, fun ⟨i, clumped⟩ => ?_⟩⟩
    · simp [matchCount] at one
    · exact absurd clumped.1 (nowhere i)
  | succ fuel ih =>
    cases text with
    | nil =>
      have nowhere := fun i => not_at_nil (i := i) nonempty
      refine ⟨⟨fun _ => nowhere, fun _ => rfl⟩, ⟨fun one => ?_, fun ⟨i, clumped⟩ => ?_⟩⟩
      · simp [matchCount] at one
      · exact absurd clumped.1 (nowhere i)
    | cons c rest =>
      rw [matchCount]
      have long := List.length_pos_iff.mpr nonempty
      simp only [List.length_cons] at enough
      split
      · rename_i starts
        have starts : At find (c :: rest) 0 := List.isPrefixOf_iff_prefix.mp starts
        have shorter : ((c :: rest).drop find.length).length ≤ fuel := by
          simp only [List.length_drop, List.length_cons]
          omega
        refine ⟨⟨fun none => absurd none (Nat.succ_ne_zero _), fun nowhere =>
          absurd starts (nowhere 0)⟩, ?_⟩
        simp only [clumped_zero starts, Nat.add_eq_right, (ih shorter).1, exists_eq_left]
      · rename_i elsewhere
        have elsewhere : ¬ At find (c :: rest) 0 := fun starts =>
          elsewhere (List.isPrefixOf_iff_prefix.mpr starts)
        have inner := @ih rest (by omega)
        constructor
        · rw [inner.1]
          constructor
          · intro nowhere i
            cases i with
            | zero => exact elsewhere
            | succ i => exact fun stands => nowhere i ((at_succ c).mp stands)
          · exact fun nowhere i stands => nowhere (i + 1) ((at_succ c).mpr stands)
        · simp only [inner.2, clumped_succ elsewhere]
          exact ⟨fun ⟨i, clumped⟩ => ⟨i + 1, i, rfl, clumped⟩, fun ⟨_, k, _, clumped⟩ => ⟨k, clumped⟩⟩

theorem replaceFirst_eq (replace : List Char) {text : List Char} {i : Nat} (stands : At find text i)
    (nonempty : find ≠ []) (first : ∀ j, At find text j → i ≤ j) :
    replaceFirst find replace text = replaceAt find replace text i := by
  induction text generalizing i with
  | nil => exact absurd stands (not_at_nil nonempty)
  | cons c rest ih =>
    rw [replaceFirst]
    split
    · rename_i starts
      obtain rfl : i = 0 := Nat.le_zero.mp (first 0 (List.isPrefixOf_iff_prefix.mp starts))
      simp [replaceAt]
    · rename_i elsewhere
      cases i with
      | zero => exact absurd (List.isPrefixOf_iff_prefix.mpr stands) elsewhere
      | succ i =>
        have inner := ih ((at_succ c).mp stands) fun j stands => by
          have := first (j + 1) ((at_succ c).mpr stands)
          omega
        rw [inner, replaceAt, replaceAt, show i + 1 + find.length = i + find.length + 1 by omega]
        rfl

end

/-! One edit, and the list -/

/-- The edit that an entry of the list describes, where it is well formed. -/
def edit? (entry : Json) : Option (Edit Char) :=
  match entry.get? "find", entry.get? "replace" with
  | some (.str find), some (.str replace) =>
    if searches : find.toList = [] then none else some ⟨find.toList, replace.toList, searches⟩
  | _, _ => none

/-- An edit is applied where its `find` has one position up to overlaps; else an error is added
and the text stays. -/
theorem applyPageEdit_cases (text : List Char) (errors : List String) (entry : Json × Nat) :
    (∃ e i, edit? entry.1 = some e ∧ Clumped e.find text i ∧
      applyPageEdit (text, errors) entry = (replaceAt e.find e.replace text i, errors)) ∨
    (∃ error, applyPageEdit (text, errors) entry = (text, errors ++ [error])) ∧
      ∀ e, edit? entry.1 = some e → ∀ i, ¬ Clumped e.find text i := by
  by_cases formed : ∃ find replace, entry.1.get? "find" = some (.str find) ∧
      entry.1.get? "replace" = some (.str replace)
  · obtain ⟨find, replace, found, replaced⟩ := formed
    simp only [applyPageEdit, edit?, found, replaced]
    by_cases searches : find.toList = []
    · have empty : find = "" := String.toList_eq_nil_iff.mp searches
      rw [if_pos empty, dif_pos searches]
      exact .inr ⟨⟨_, rfl⟩, fun e => nofun⟩
    · have named : find ≠ "" := fun empty => searches (String.toList_eq_nil_iff.mpr empty)
      have count := matchCount_spec searches (Nat.le_refl text.length)
      rw [if_neg named, dif_neg searches]
      split
      · rename_i one
        obtain ⟨i, clumped⟩ := count.2.mp one
        refine .inl ⟨_, i, rfl, clumped, ?_⟩
        rw [replaceFirst_eq _ clumped.1 searches fun j stands => (clumped.2 j stands).1]
      · rename_i zero
        refine .inr ⟨⟨_, rfl⟩, fun e same i clumped => ?_⟩
        cases same
        exact count.1.mp zero i clumped.1
      · rename_i one _
        refine .inr ⟨⟨_, rfl⟩, fun e same i clumped => ?_⟩
        cases same
        exact one (count.2.mpr ⟨i, clumped⟩)
  · refine .inr ⟨?_, fun e named => ?_⟩
    · unfold applyPageEdit
      split
      · exact absurd ⟨_, _, ‹_›, ‹_›⟩ formed
      · exact ⟨_, rfl⟩
    · unfold edit? at named
      split at named
      · exact absurd ⟨_, _, ‹_›, ‹_›⟩ formed
      · cases named

/-- The errors only grow. -/
theorem foldl_errors (entries : List (Json × Nat)) (text : List Char) (errors : List String) :
    errors <+: (entries.foldl applyPageEdit (text, errors)).2 := by
  induction entries generalizing text errors with
  | nil => exact List.prefix_rfl
  | cons entry rest ih =>
    rw [List.foldl_cons]
    obtain ⟨e, i, _, _, applied⟩ | ⟨⟨error, refused⟩, _⟩ := applyPageEdit_cases text errors entry
    · rw [applied]
      exact ih _ _
    · rw [refused]
      exact (List.prefix_append _ _).trans (ih _ _)

/-- No error is left exactly where every entry is an edit and each one was applied. -/
theorem foldl_clean_iff (entries : List (Json × Nat)) (text out : List Char) :
    entries.foldl applyPageEdit (text, []) = (out, []) ↔
      ∃ edits, List.Forall₂ (fun entry e => edit? entry.1 = some e) entries edits ∧
        Replaces Clumped edits text out := by
  induction entries generalizing text with
  | nil => simp [eq_comm]
  | cons entry rest ih =>
    rw [List.foldl_cons]
    simp only [List.forall₂_cons_left_iff]
    obtain ⟨e, i, named, clumped, applied⟩ | ⟨⟨error, refused⟩, unfit⟩ :=
      applyPageEdit_cases text [] entry
    · rw [applied, ih]
      constructor
      · rintro ⟨edits, formed, run⟩
        exact ⟨e :: edits, ⟨e, edits, named, formed, rfl⟩, .edit clumped run⟩
      · rintro ⟨_, ⟨other, edits, named', formed, rfl⟩, run⟩
        obtain rfl := Option.some.inj (named.symm.trans named')
        obtain ⟨j, clumped', run⟩ := replaces_cons.mp run
        obtain rfl := clumped.position clumped'
        exact ⟨edits, formed, run⟩
    · rw [refused]
      constructor
      · intro clean
        have kept := foldl_errors rest text ([] ++ [error])
        rw [clean] at kept
        exact absurd (List.prefix_nil.mp kept) (by simp)
      · rintro ⟨_, ⟨e, edits, named, _, rfl⟩, run⟩
        obtain ⟨i, clumped, _⟩ := replaces_cons.mp run
        exact absurd clumped (unfit e named i)

/-! The document that the edits leave -/

structure ValidPage (text : List Char) : Prop where
  printed : ∃ c ∈ text, JsNumber.isSpace c = false
  short : Json.utf16Length text ≤ maxPageChars
  tagged : ∃ i c, At ['<', c] text i ∧ (c.isAlpha = true ∨ c = '!')

theorem trim_eq_nil_iff (text : List Char) :
    JsNumber.trim text = [] ↔ ∀ c ∈ text, JsNumber.isSpace c = true := by
  rw [JsNumber.trim, List.reverse_eq_nil_iff, List.dropWhile_eq_nil_iff]
  constructor
  · intro blank
    rw [← List.dropWhile_eq_nil_iff]
    by_contra solid
    have head := List.head_dropWhile_not JsNumber.isSpace solid
    rw [blank _ (List.mem_reverse.mpr (List.head_mem solid))] at head
    cases head
  · intro blank c member
    exact blank c ((List.dropWhile_sublist _).mem (List.mem_reverse.mp member))

theorem hasTag_cons (x : Char) (rest : List Char) : hasTag (x :: rest) = true ↔
    (∃ c, At ['<', c] (x :: rest) 0 ∧ (c.isAlpha = true ∨ c = '!')) ∨ hasTag rest = true := by
  by_cases opens : x = '<'
  · subst opens
    cases rest with
    | nil => simp [hasTag, At]
    | cons c rest => simp [hasTag, At, or_assoc]
  · cases rest <;> simp [hasTag, At, opens, Ne.symm opens]

theorem hasTag_iff (text : List Char) :
    hasTag text = true ↔ ∃ i c, At ['<', c] text i ∧ (c.isAlpha = true ∨ c = '!') := by
  induction text with
  | nil => simp [hasTag, At]
  | cons x rest ih =>
    rw [hasTag_cons, ih]
    constructor
    · rintro (⟨c, stands, letter⟩ | ⟨i, c, stands, letter⟩)
      · exact ⟨0, c, stands, letter⟩
      · exact ⟨i + 1, c, (at_succ x).mpr stands, letter⟩
    · rintro ⟨_ | i, c, stands, letter⟩
      · exact .inl ⟨c, stands, letter⟩
      · exact .inr ⟨i, c, (at_succ x).mp stands, letter⟩

theorem validatePageHtml_ok_iff (html out : String) :
    validatePageHtml (.str html) = .ok out ↔ out = html ∧ ValidPage html.toList := by
  unfold validatePageHtml
  dsimp only
  split
  · rename_i blank
    refine ⟨nofun, fun ⟨_, valid⟩ => ?_⟩
    obtain ⟨c, member, solid⟩ := valid.printed
    rw [(trim_eq_nil_iff _).mp blank c member] at solid
    cases solid
  · rename_i printed
    split
    · rename_i long
      exact ⟨nofun, fun ⟨_, valid⟩ => absurd valid.short (Nat.not_le.mpr long)⟩
    · rename_i short
      split
      · rename_i tagged
        have printed : ∃ c ∈ html.toList, JsNumber.isSpace c = false := by
          simpa [trim_eq_nil_iff] using printed
        constructor
        · rintro ⟨⟩
          exact ⟨rfl, printed, Nat.not_lt.mp short, (hasTag_iff _).mp tagged⟩
        · rintro ⟨rfl, _⟩
          rfl
      · rename_i plain
        exact ⟨nofun, fun ⟨_, valid⟩ => absurd ((hasTag_iff _).mpr valid.tagged) plain⟩

/-- `edits` is a list of edits, with one edit or more. -/
def Formed (edits : Json) (list : List (Edit Char)) : Prop :=
  ∃ entries, edits = .arr entries ∧ entries ≠ [] ∧
    List.Forall₂ (fun entry e => edit? entry = some e) entries list

theorem Formed.unique {edits : Json} {list other : List (Edit Char)} (formed : Formed edits list)
    (again : Formed edits other) : other = list := by
  obtain ⟨entries, rfl, _, each⟩ := formed
  obtain ⟨_, ⟨⟩, _, each'⟩ := again
  exact List.right_unique_forall₂' (fun _ _ _ one two => Option.some.inj (one.symm.trans two))
    each' each

theorem Formed.iff (entries : List Json) (list : List (Edit Char)) :
    Formed (.arr entries) list ↔ entries ≠ [] ∧
      List.Forall₂ (fun entry e => edit? entry.1 = some e) entries.zipIdx list := by
  have numbered : List.Forall₂ (fun entry e => edit? entry.1 = some e) entries.zipIdx list ↔
      List.Forall₂ (fun entry e => edit? entry = some e) entries list := by
    rw [← List.forall₂_map_left_iff (f := Prod.fst) (R := fun entry e => edit? entry = some e),
      List.zipIdx_map_fst]
  rw [numbered]
  constructor
  · rintro ⟨_, ⟨⟩, more, each⟩
    exact ⟨more, each⟩
  · rintro ⟨more, each⟩
    exact ⟨entries, rfl, more, each⟩

/-- The list is applied exactly where it is one, each of its edits in turn has one position up to
overlaps, and a valid page is left. -/
theorem applyPageEdits_ok_iff (html : String) (edits : Json) (out : String) :
    applyPageEdits html edits = .ok out ↔ ∃ list, Formed edits list ∧
      Replaces Clumped list html.toList out.toList ∧ ValidPage out.toList := by
  unfold applyPageEdits
  split
  · rename_i first rest
    simp only [Formed.iff, ne_eq, reduceCtorEq, not_false_eq_true, true_and]
    have clean := foldl_clean_iff (first :: rest).zipIdx html.toList
    split
    · rename_i result left
      rw [validatePageHtml_ok_iff]
      constructor
      · rintro ⟨rfl, valid⟩
        obtain ⟨list, formed, run⟩ := (clean result).mp left
        rw [String.toList_ofList] at valid ⊢
        exact ⟨list, formed, run, valid⟩
      · rintro ⟨list, formed, run, valid⟩
        have same := (clean out.toList).mpr ⟨list, formed, run⟩
        obtain rfl : out.toList = result := (Prod.ext_iff.mp (same.symm.trans left)).1
        rw [String.ofList_toList]
        exact ⟨rfl, valid⟩
    · rename_i errors some left
      refine ⟨nofun, fun ⟨list, formed, run, _⟩ => ?_⟩
      have same := (clean out.toList).mpr ⟨list, formed, run⟩
      exact absurd (Prod.ext_iff.mp (left.symm.trans same)).2 (by simpa using some)
  · rename_i other
    refine ⟨nofun, ?_⟩
    rintro ⟨list, ⟨entries, rfl, more, _⟩, _⟩
    obtain ⟨first, rest, rfl⟩ := List.exists_cons_of_ne_nil more
    exact absurd rfl (other first rest)

/-! `SpacesService.updatePage` -/

abbrev Titles := UuidText → Option PageTitle

def updatePage (db : SpaceDatabase) (titles : Titles) (workspaceId slug : String)
    (input : UpdatePageInput) : (SpaceDatabase × Titles) × Except HttpException Space :=
  match findPageForWorkspace db titles workspaceId slug with
  | .error e => ((db, titles), .error e)
  | .ok (page, title) =>
    match editedPage page title input with
    | .error e => ((db, titles), .error e)
    | .ok (html, title) =>
      ((db.setHtml page.id html, Function.update titles page.id (some title)),
        .ok { page with html := some html })

/-- The edits are well formed, each one's text has one position where it is applied, and
`out`, the page with each of them replaced there, is a valid page. -/
def LiteralResult (html : String) (edits : Json) (out : String) : Prop :=
  ∃ list, Formed edits list ∧ Replaces Once list html.toList out.toList ∧ ValidPage out.toList

/-- The edits of this page do what their list says, or nothing. -/
structure Literally (html : String) (edits : Json) : Prop where
  result : ∀ out, applyPageEdits html edits = .ok out ↔ LiteralResult html edits out
  written : ∀ db titles workspaceId slug page title out,
    findPageForWorkspace db titles workspaceId slug = .ok (page, title) →
    page.html.getD "" = html → LiteralResult html edits out →
    updatePage db titles workspaceId slug { edits := some edits } =
      ((db.setHtml page.id out, Function.update titles page.id (some title)),
        .ok { page with html := some out })
  unchanged : ∀ db titles workspaceId slug page title name,
    findPageForWorkspace db titles workspaceId slug = .ok (page, title) →
    page.html.getD "" = html → (∀ out, ¬ LiteralResult html edits out) →
    ∃ e, updatePage db titles workspaceId slug { edits := some edits, name := name } =
      ((db, titles), .error e)

/-- The list could be applied and would leave a valid page, but the text of some edit has two
positions where it is applied: they overlap, as the list could be applied. -/
def Ambiguous (html : String) (edits : Json) : Prop :=
  ∃ list out, Formed edits list ∧ Replaces Clumped list html.toList out ∧ ValidPage out ∧
    Twice list html.toList

theorem updatePage_of_ok {db : SpaceDatabase} {titles : Titles} {workspaceId slug html : String}
    {page : Space} {title : PageTitle} {edits : Json} {out : String}
    (found : findPageForWorkspace db titles workspaceId slug = .ok (page, title))
    (document : page.html.getD "" = html) (applied : applyPageEdits html edits = .ok out) :
    updatePage db titles workspaceId slug { edits := some edits } =
      ((db.setHtml page.id out, Function.update titles page.id (some title)),
        .ok { page with html := some out }) := by
  subst document
  simp [updatePage, found, editedPage, applied]

theorem updatePage_of_error {db : SpaceDatabase} {titles : Titles} {workspaceId slug html : String}
    {page : Space} {title : PageTitle} {edits : Json} {e : HttpException} (name : Option Json)
    (found : findPageForWorkspace db titles workspaceId slug = .ok (page, title))
    (document : page.html.getD "" = html) (refused : applyPageEdits html edits = .error e) :
    updatePage db titles workspaceId slug { edits := some edits, name := name } =
      ((db, titles), .error e) := by
  subst document
  simp [updatePage, found, editedPage, refused]

/-- A list that is not ambiguous is applied with one position for each edit. -/
theorem literal_of_clear {html : String} {edits : Json} (clear : ¬ Ambiguous html edits)
    (out : String) : applyPageEdits html edits = .ok out ↔ LiteralResult html edits out := by
  rw [applyPageEdits_ok_iff]
  constructor
  · rintro ⟨list, formed, run, valid⟩
    obtain once | twice := run.once_or_twice
    · exact ⟨list, formed, once, valid⟩
    · exact absurd ⟨list, out.toList, formed, run, valid, twice⟩ clear
  · rintro ⟨list, formed, run, valid⟩
    exact ⟨list, formed, run.clumped, valid⟩

theorem clear_of_literal {html : String} {edits : Json}
    (literal : ∀ out, applyPageEdits html edits = .ok out ↔ LiteralResult html edits out) :
    ¬ Ambiguous html edits := by
  rintro ⟨list, out, formed, run, valid, twice⟩
  have applied := (applyPageEdits_ok_iff html edits (String.ofList out)).mpr
    ⟨list, formed, by rwa [String.toList_ofList], by rwa [String.toList_ofList]⟩
  obtain ⟨same, formed', once, _⟩ := (literal _).mp applied
  obtain rfl := formed.unique formed'
  exact once.not_twice twice

theorem literally_iff (html : String) (edits : Json) :
    Literally html edits ↔ ¬ Ambiguous html edits := by
  constructor
  · intro literally
    exact clear_of_literal literally.result
  · intro clear
    have literal := literal_of_clear clear
    refine ⟨literal, ?_, ?_⟩
    · intro db titles workspaceId slug page title out found document asked
      exact updatePage_of_ok found document ((literal out).mpr asked)
    · intro db titles workspaceId slug page title name found document none
      cases refused : applyPageEdits html edits with
      | ok out => exact absurd ((literal out).mp refused) (none out)
      | error e => exact ⟨e, updatePage_of_error name found document refused⟩

/-- Texts that do not begin with their own end have no overlapping positions. -/
theorem literal_of_unbordered {html : String} {edits : Json} {list : List (Edit Char)}
    (formed : Formed edits list) (unbordered : ∀ e ∈ list, Unbordered e.find) (out : String) :
    applyPageEdits html edits = .ok out ↔ LiteralResult html edits out := by
  refine literal_of_clear (fun ⟨other, left, formed', run, _, twice⟩ => ?_) out
  obtain rfl := formed.unique formed'
  exact (run.once unbordered).not_twice twice

def doubledLetters : Json :=
  .arr [.obj [("find", .str "aa"), ("replace", .str "b")]]

/-- `aa` has two positions in the page; its first one is replaced. -/
theorem overlapping_replaced : ¬ Literally "<p>aaa</p>" doubledLetters := by
  intro literally
  have applied : applyPageEdits "<p>aaa</p>" doubledLetters = .ok "<p>ba</p>" := by
    decide +kernel
  obtain ⟨list, formed, run, _⟩ := (literally.result _).mp applied
  have named : Formed doubledLetters [⟨['a', 'a'], ['b'], by decide⟩] :=
    ⟨_, rfl, by simp, .cons rfl .nil⟩
  obtain rfl := named.unique formed
  obtain ⟨i, once, _⟩ := replaces_cons.mp run
  have first := once.2 3 (by decide +kernel)
  have second := once.2 4 (by decide +kernel)
  omega

end Gomer.PageEdits
