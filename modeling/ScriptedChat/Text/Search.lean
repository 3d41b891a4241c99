/-!
# Searching in texts

First occurrences and fixed beginnings and endings of a text.

* `afterFront? front text`: what follows `front`, when the text begins with it.
* `beforeBack? back text`: what precedes `back`, when the text ends with it.
* `cutAt? needle text`: the text before and after the first occurrence of `needle`.
* `occurs needle text`: whether there is an occurrence at all.
-/

namespace ScriptedChat.Text

variable {α : Type} [DecidableEq α]

/-- What follows `front` in a text that begins with it. -/
def afterFront? : List α → List α → Option (List α)
  | [], text => some text
  | _ :: _, [] => none
  | f :: front, c :: text => if f = c then afterFront? front text else none

/-- What precedes `back` in a text that ends with it. -/
def beforeBack? (back text : List α) : Option (List α) :=
  (afterFront? back.reverse text.reverse).map List.reverse

/-- The text before and the text after the first occurrence of `needle`. -/
def cutAt? (needle : List α) : List α → Option (List α × List α)
  | [] => (afterFront? needle []).map fun rest => ([], rest)
  | c :: text =>
    match afterFront? needle (c :: text) with
    | some rest => some ([], rest)
    | none => (cutAt? needle text).map fun (before, after) => (c :: before, after)

/-- Whether `needle` stands somewhere in the text. -/
def occurs (needle text : List α) : Bool :=
  (cutAt? needle text).isSome

end ScriptedChat.Text
