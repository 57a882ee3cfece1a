/-! The moderation status of a collection. -/

namespace Curation

/-- Who may see a collection, and what moderation has decided about it. -/
inductive Status where
  | listed
  | unlisted
  | «private»
  | approved
  | rejected
  | unknown
  deriving DecidableEq, Repr

namespace Status

def all : List Status := [listed, unlisted, .private, approved, rejected, unknown]

/-- The word that stands for the status in rows and requests. -/
def word : Status → String
  | listed => "listed"
  | unlisted => "unlisted"
  | .private => "private"
  | approved => "approved"
  | rejected => "rejected"
  | unknown => "unknown"

/-- The status that a word stands for. -/
def ofWord? (w : String) : Option Status := all.find? fun s => s.word == w

/-- The status of a new collection. -/
def initial : Status := listed

/-- The collection has passed moderation. -/
def isApproved : Status → Bool
  | listed | unlisted | .private | approved => true
  | rejected | unknown => false

/-- Its owner may ask for this status. -/
def isRequestable : Status → Bool
  | listed | unlisted | .private => true
  | approved | rejected | unknown => false

/-- Only its owner and the moderators see the collection. -/
def isHidden : Status → Bool
  | .private | rejected | unknown => true
  | listed | unlisted | approved => false

theorem ofWord?_word (s : Status) : ofWord? s.word = some s := by cases s <;> decide

theorem word_of_ofWord? {w : String} {s : Status} (h : ofWord? w = some s) : s.word = w := by
  simpa using List.find?_some h

end Status

end Curation
