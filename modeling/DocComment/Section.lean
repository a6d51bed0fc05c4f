import DocComment.Text.Search

/-! The sections of a documentation comment. Every child element of a rendered comment belongs to
one section, and the output groups the elements by section in a fixed order. A section other than
the description is entered by a keyword, an at sign followed by the section's name. -/
namespace DocComment

inductive Section where
  | description | author | version | param | returns | error | deprecated | see | since | custom
deriving DecidableEq, Repr

namespace Section

def all : List Section :=
  [.description, .author, .version, .param, .returns, .error, .deprecated, .see, .since, .custom]

def name : Section → Text
  | .description => "description".toList
  | .author => "author".toList
  | .version => "version".toList
  | .param => "param".toList
  | .returns => "return".toList
  | .error => "error".toList
  | .deprecated => "deprecated".toList
  | .see => "see".toList
  | .since => "since".toList
  | .custom => "custom".toList

def index : Section → Fin 10
  | .description => 0
  | .author => 1
  | .version => 2
  | .param => 3
  | .returns => 4
  | .error => 5
  | .deprecated => 6
  | .see => 7
  | .since => 8
  | .custom => 9

/-- The sections entered by a keyword, in the order in which a line is searched for their keywords.
A keyword earlier in this list wins over one further left in the line. -/
def tagged : List Section :=
  [.param, .returns, .error, .deprecated, .see, .since, .custom, .author, .version]

def keyword (s : Section) : Text := '@' :: s.name

theorem mem_all (s : Section) : s ∈ all := by cases s <;> decide

theorem all_getElem?_index (s : Section) : all[s.index.val]? = some s := by cases s <;> rfl

theorem index_injective {s t : Section} (h : s.index = t.index) : s = t := by
  have hs := all_getElem?_index s
  rw [h, all_getElem?_index t] at hs
  exact (Option.some.inj hs).symm

theorem name_injective {s t : Section} (h : s.name = t.name) : s = t := by
  revert h
  cases s <;> cases t <;> decide

theorem mem_tagged {s : Section} : s ∈ tagged ↔ s ≠ .description := by cases s <;> decide

end Section
end DocComment
