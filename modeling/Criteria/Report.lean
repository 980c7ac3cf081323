import Criteria.Translator

/-! # Reports
A report collects the messages about a payload in the order in which the problems are found. It
only ever grows: every step appends, nothing is removed and nothing is merged, so the same message
may stand in it more than once.

A check that a rule makes on top of the built-in ones answers with a list of complaints, each a
finished text or an issue of the rule's field that is still to be worded; `Report.complain` records
one. Every way to add to a report is pinned down by its effect on `Report.toList`. -/

namespace Criteria

/-- A **report**: messages in the order in which they were recorded. -/
structure Report where
  /-- The messages. -/
  messages : Array String := #[]
deriving DecidableEq, Repr, Inhabited

/-- What a check of a rule has to say about a value. -/
inductive Complaint where
  /-- A text, recorded as it stands. -/
  | message (text : String)
  /-- An issue of the rule's field. -/
  | issue (i : FieldIssue)
deriving DecidableEq, Repr

namespace Complaint

/-- The text of a complaint about a field. -/
def text (t : Translator) (field : String) : Complaint → String
  | message text => text
  | issue i => t.fieldIssue i field

end Complaint

namespace Report

/-- The report without messages. -/
def empty : Report := {}

/-- A report of the given messages. -/
def ofList (messages : List String) : Report := ⟨messages.toArray⟩

/-- The messages in order. -/
def toList (r : Report) : List String := r.messages.toList

/-- The number of messages. -/
def size (r : Report) : Nat := r.messages.size

/-- Whether nothing was recorded. -/
def isEmpty (r : Report) : Bool := r.messages.isEmpty

/-- Records a message. -/
def push (r : Report) (message : String) : Report := ⟨r.messages.push message⟩

/-- Records an issue. -/
def issue (r : Report) (t : Translator) (i : Issue) : Report := r.push (t.issue i)

/-- Records an issue of a field. -/
def fieldIssue (r : Report) (t : Translator) (i : FieldIssue) (field : String) : Report :=
  r.push (t.fieldIssue i field)

/-- Records a complaint about a field. -/
def complain (r : Report) (t : Translator) (field : String) (c : Complaint) : Report :=
  r.push (c.text t field)

/-- Records complaints about a field, in their order. -/
def complainAll (r : Report) (t : Translator) (field : String) (cs : List Complaint) : Report :=
  cs.foldl (complain · t field) r

/-- The messages as one text: they are parted by full stops, and one more stands at the end. -/
def sentence (r : Report) : String := ". ".intercalate r.toList ++ "."

/-! ## The messages after each step -/

/-- An empty report has no messages. -/
@[simp] theorem toList_empty : empty.toList = [] := rfl

/-- A report made of messages has these messages. -/
@[simp] theorem toList_ofList (ms : List String) : (ofList ms).toList = ms := rfl

/-- A message is added behind the others. -/
@[simp] theorem toList_push (r : Report) (m : String) : (r.push m).toList = r.toList ++ [m] := by
  simp [toList, push]

/-- The text of an issue is added behind the messages. -/
@[simp] theorem toList_issue (r : Report) (t : Translator) (i : Issue) :
    (r.issue t i).toList = r.toList ++ [t.issue i] := toList_push r _

/-- The text of an issue with a field is added behind the messages. -/
@[simp] theorem toList_fieldIssue (r : Report) (t : Translator) (i : FieldIssue) (field : String) :
    (r.fieldIssue t i field).toList = r.toList ++ [t.fieldIssue i field] := toList_push r _

/-- The texts of several complaints are added behind the messages, in their order. -/
@[simp] theorem toList_complainAll (r : Report) (t : Translator) (field : String)
    (cs : List Complaint) :
    (r.complainAll t field cs).toList = r.toList ++ cs.map (·.text t field) := by
  induction cs generalizing r with
  | nil => simp [complainAll]
  | cons c cs ih =>
    have h : r.complainAll t field (c :: cs) = (r.complain t field c).complainAll t field cs := rfl
    rw [h, ih]
    simp [complain]

/-- The size of a report is its number of messages. -/
@[simp] theorem length_toList (r : Report) : r.toList.length = r.size := by simp [toList, size]

/-- A report is its messages. -/
@[ext] theorem ext {r s : Report} (h : r.toList = s.toList) : r = s := by
  cases r; cases s; simpa [toList] using h

end Report

end Criteria
