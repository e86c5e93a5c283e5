/-! JSON texts as trees. Two constructors stand for what a text can hold beside JSON. `broken` is a
place where the text stops being JSON: an array that breaks off ends in a broken item, an object
that breaks off in a member with a broken value, and nothing follows a broken place. `flawed` is
text that a reader may skip over but not read, such as a number out of range or half of a surrogate
pair; it carries what a reader would find. A reader that walks the tree in order thus meets the
problems of a text in the order in which they stand there. -/

namespace BeanDispatch

/-- A JSON text as a tree, members in order and with repetitions. -/
inductive Json
  | null
  | bool (b : Bool)
  | number (text : String)
  | str (s : String)
  | array (items : List Json)
  | object (members : List (String × Json))
  | broken
  | flawed (view : Json)

namespace Json

/-- Whether a text can be skipped over: nothing is broken except inside a flawed part. -/
def skippable : Json → Bool
  | array items => allItems items
  | object members => allMembers members
  | broken => false
  | _ => true
where
  allItems : List Json → Bool
    | [] => true
    | j :: rest => j.skippable && allItems rest
  allMembers : List (String × Json) → Bool
    | [] => true
    | (_, j) :: rest => j.skippable && allMembers rest

/-- Whether a text can be read through: nothing in it is broken or flawed. -/
def readable : Json → Bool
  | array items => allItems items
  | object members => allMembers members
  | broken => false
  | flawed _ => false
  | _ => true
where
  allItems : List Json → Bool
    | [] => true
    | j :: rest => j.readable && allItems rest
  allMembers : List (String × Json) → Bool
    | [] => true
    | (_, j) :: rest => j.readable && allMembers rest

end Json

end BeanDispatch
