import EditorMarkdown.Article.Basic
import EditorMarkdown.Document.Json

/-!
The JSON form of articles. Empty front matter is not written.
-/

namespace EditorMarkdown.Article

open Json (Value required? defaulted?)

def ofJson? (value : Value) : Option Article := do
  let fields ← Json.fields? ["frontMatter", "document"] value
  let frontMatter ← defaulted? Value.string? "" "frontMatter" fields
  let document ← required? Document.Node.ofJson? "document" fields
  return { frontMatter, document }

def toJson (article : Article) : Value :=
  let document := [("document", article.document.toJson)]
  .object
    (if article.frontMatter.isEmpty then document
    else ("frontMatter", .string article.frontMatter) :: document)

theorem ofJson?_toJson (article : Article) : ofJson? article.toJson = some article := by
  obtain ⟨frontMatter, document⟩ := article
  have whole := Document.Node.ofJson?_toJson document
  cases empty : frontMatter.isEmpty with
  | true =>
      have none : frontMatter = "" := by simpa using empty
      have distinct : Json.repeats ["frontMatter", "document"] [("document", document.toJson)] =
          false := Json.repeats_of_nodup _ (by simp)
      simp [ofJson?, toJson, Json.fields?, none, distinct, defaulted?, required?, whole]
  | false =>
      have distinct : Json.repeats ["frontMatter", "document"]
          [("frontMatter", .string frontMatter), ("document", document.toJson)] = false :=
        Json.repeats_of_nodup _ (by simp)
      simp [ofJson?, toJson, Json.fields?, empty, distinct, defaulted?, required?, Value.string?,
        whole]

end EditorMarkdown.Article
