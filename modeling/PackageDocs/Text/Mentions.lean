import PackageDocs.Text.Basic

/-!
# First mentions

A list of names may mention a name several times; only the first mention counts.

## Main definitions

- `Text.firstMentions`: each name once, in the order of the first mentions
-/

namespace PackageDocs

namespace Text

/-- Each name once, where it is first mentioned. -/
def firstMentions : List Text → List Text
  | [] => []
  | name :: rest => name :: (firstMentions rest).filter (· != name)

/-- The first mentions are the names mentioned. -/
theorem mem_firstMentions {name : Text} {names : List Text} :
    name ∈ firstMentions names ↔ name ∈ names := by
  induction names with
  | nil => simp [firstMentions]
  | cons first rest ih =>
    by_cases h : name = first <;> simp [firstMentions, h, ih]

end Text

end PackageDocs
