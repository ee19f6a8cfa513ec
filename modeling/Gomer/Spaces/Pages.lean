import Gomer.Spaces.Records

/-! `SpacesService.updatePage`: the document and the name of a page, from a row that was read
before. -/
namespace Gomer

open HttpException

def maxPageChars : Nat := 300000

/-- `/<[a-z!]/i`. -/
def hasTag : List Char → Bool
  | '<' :: c :: rest => c.isAlpha || c == '!' || hasTag (c :: rest)
  | _ :: rest => hasTag rest
  | [] => false

def validatePageHtml (html : Json) : Except HttpException String :=
  match html with
  | .str text =>
    if JsNumber.trim text.toList = [] then
      .error (badRequest "html must be the whole page as one HTML document")
    else if maxPageChars < Json.utf16Length text.toList then
      .error (badRequest ("html is " ++ toString (Json.utf16Length text.toList) ++
        " characters; a page may be at most " ++ toString maxPageChars ++ ". Make it shorter"))
    else if hasTag text.toList then .ok text
    else .error (badRequest "html must be an HTML document, not plain text")
  | _ => .error (badRequest "html must be the whole page as one HTML document")

/-- `text.split(find).length - 1` for a `find` that is not empty, over at most `fuel` characters. -/
def matchCount (find : List Char) : Nat → List Char → Nat
  | fuel + 1, c :: rest =>
    if find.isPrefixOf (c :: rest) then matchCount find fuel ((c :: rest).drop find.length) + 1
    else matchCount find fuel rest
  | _, _ => 0

/-- The first occurrence replaced. -/
def replaceFirst (find replace : List Char) : List Char → List Char
  | [] => []
  | c :: rest =>
    if find.isPrefixOf (c :: rest) then replace ++ (c :: rest).drop find.length
    else c :: replaceFirst find replace rest

def editName (i : Nat) : String := "edits[" ++ toString i ++ "]"

/-- One edit, on the document and the errors so far. -/
def applyPageEdit (done : List Char × List String) (edit : Json × Nat) : List Char × List String :=
  match edit.1.get? "find", edit.1.get? "replace" with
  | some (.str find), some (.str replace) =>
    if find = "" then (done.1, done.2 ++ [editName edit.2 ++ ".find is empty"])
    else
      match matchCount find.toList done.1.length done.1 with
      | 1 => (replaceFirst find.toList replace.toList done.1, done.2)
      | 0 => (done.1, done.2 ++ [editName edit.2 ++
          ".find does not appear in the page. Copy it exactly from get_page"])
      | matched => (done.1, done.2 ++ [editName edit.2 ++ ".find appears " ++ toString matched ++
          " times. Include more of the surrounding text"])
  | _, _ => (done.1, done.2 ++ [editName edit.2 ++ " must be { find: string, replace: string }"])

def applyPageEdits (html : String) (edits : Json) : Except HttpException String :=
  match edits with
  | .arr (first :: rest) =>
    match (first :: rest).zipIdx.foldl applyPageEdit (html.toList, []) with
    | (result, []) => validatePageHtml (.str (String.ofList result))
    | (_, errors) => .error (badRequest "The page was not changed" errors)
  | _ => .error (badRequest "edits must be a non-empty list of { find, replace }")

/-- The columns of a Space that an edit reads or writes beside those of the runtime. -/
structure PageTitle where
  workspaceId : String
  name : String
  spec : List (String × Json)

/-- An absent field is `none`. -/
structure UpdatePageInput where
  html : Option Json := none
  edits : Option Json := none
  name : Option Json := none

/-- `{ ...page.spec, name }`. -/
def renamed (title : PageTitle) (name : String) : PageTitle :=
  { title with
    name := name
    spec := title.spec.filter (fun field => field.1 != "name") ++ [("name", .str name)] }

/-- What `updatePage` writes, from the row that it has read. -/
def editedPage (page : Space) (title : PageTitle) (input : UpdatePageInput) :
    Except HttpException (String × PageTitle) :=
  let html := match input.html, input.edits with
    | some html, none => validatePageHtml html
    | none, some edits => applyPageEdits (page.html.getD "") edits
    | _, _ => .error (badRequest "Pass either html (the whole page) or edits, not both")
  match html with
  | .error e => .error e
  | .ok html =>
    match input.name with
    | none => .ok (html, title)
    | some (.str name) =>
      if JsNumber.trim name.toList = [] then .error (badRequest "name must be a non-empty string")
      else .ok (html, renamed title (String.ofList (JsNumber.trim name.toList)))
    | some _ => .error (badRequest "name must be a non-empty string")

def findPageForWorkspace (db : SpaceDatabase) (titles : UuidText → Option PageTitle)
    (workspaceId slug : String) : Except HttpException (Space × PageTitle) :=
  match db.spaces.find? fun space => space.slug == slug &&
      ((titles space.id).any fun title => title.workspaceId == workspaceId) with
  | none => .error (notFound "Page not found")
  | some space =>
    match titles space.id with
    | none => .error (notFound "Page not found")
    | some title =>
      if space.kind ≠ .page then
        .error (badRequest ("\"" ++ slug ++
          "\" is an app, not a page. Change it with update_space or add_space_records"))
      else .ok (space, title)

/-- The `html` of one row; the other columns stay. -/
def SpaceDatabase.setHtml (db : SpaceDatabase) (id : UuidText) (html : String) : SpaceDatabase :=
  let written (space : Space) : Space :=
    if space.id = id then { space with html := some html } else space
  { db with
    spaces := db.spaces.map written
    slugKey := by
      have same : db.spaces.map ((·.slug) ∘ written) = db.spaces.map (·.slug) :=
        List.map_congr_left fun space _ => by dsimp only [Function.comp, written]; split <;> rfl
      rw [List.map_map, same]
      exact db.slugKey }

end Gomer
