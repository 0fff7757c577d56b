import Cadence.Json.Basic

/-!
# Issues found in data

Data from outside is checked against a schema. An issue tells where in the data something is wrong
and what.
-/

namespace Cadence

/-- A step on the way to a value: a member of an object or an item of a list. -/
inductive Place where
  | field (name : String)
  | item (index : Nat)
deriving DecidableEq, Repr

inductive Complaint where
  | missing
  | string
  | stringTooShort (least : Nat)
  | integer
  | integerText
  | integerFraction
  | integerFinite
  | integerSize
  | number
  | numberText
  | atLeast (least : Int)
  | boolean
  | booleanText
  | dictionary
  | list
  | schemaValue (schema : String)
  | schemaBody
  | choice (choices : List String)
  | datetime
  | datetimeText (reason : String)
  | datetimeNumber (reason : String)
  | unreadable
  | rule (text : String)
deriving DecidableEq, Repr

/-- A list of words in quotes, the last one after "or". -/
def quotedChoices : List String → String
  | [] => ""
  | [a] => "'" ++ a ++ "'"
  | [a, b] => "'" ++ a ++ "' or '" ++ b ++ "'"
  | a :: rest => "'" ++ a ++ "', " ++ quotedChoices rest

namespace Complaint

def label : Complaint → String
  | missing => "missing"
  | string => "string_type"
  | stringTooShort _ => "string_too_short"
  | integer => "int_type"
  | integerText => "int_parsing"
  | integerFraction => "int_from_float"
  | integerFinite => "finite_number"
  | integerSize => "int_parsing_size"
  | number => "float_type"
  | numberText => "float_parsing"
  | atLeast _ => "greater_than_equal"
  | boolean => "bool_type"
  | booleanText => "bool_parsing"
  | dictionary => "dict_type"
  | list => "list_type"
  | schemaValue _ => "model_type"
  | schemaBody => "model_attributes_type"
  | choice _ => "enum"
  | datetime => "datetime_type"
  | datetimeText _ => "datetime_from_date_parsing"
  | datetimeNumber _ => "datetime_parsing"
  | unreadable => "json_invalid"
  | rule _ => "value_error"

def message : Complaint → String
  | missing => "Field required"
  | string => "Input should be a valid string"
  | stringTooShort least =>
    "String should have at least " ++ toString least ++ (if least = 1 then " character" else " characters")
  | integer => "Input should be a valid integer"
  | integerText => "Input should be a valid integer, unable to parse string as an integer"
  | integerFraction => "Input should be a valid integer, got a number with a fractional part"
  | integerFinite => "Input should be a finite number"
  | integerSize => "Unable to parse input string as an integer, exceeded maximum size"
  | number => "Input should be a valid number"
  | numberText => "Input should be a valid number, unable to parse string as a number"
  | atLeast least => "Input should be greater than or equal to " ++ toString least
  | boolean => "Input should be a valid boolean"
  | booleanText => "Input should be a valid boolean, unable to interpret input"
  | dictionary => "Input should be a valid dictionary"
  | list => "Input should be a valid list"
  | schemaValue schema => "Input should be a valid dictionary or instance of " ++ schema
  | schemaBody => "Input should be a valid dictionary or object to extract fields from"
  | choice choices => "Input should be " ++ quotedChoices choices
  | datetime => "Input should be a valid datetime"
  | datetimeText reason => "Input should be a valid datetime or date, " ++ reason
  | datetimeNumber reason => "Input should be a valid datetime, " ++ reason
  | unreadable => "JSON decode error"
  | rule text => "Value error, " ++ text

end Complaint

/-- What is wrong, and where. -/
structure Issue where
  place : List Place
  complaint : Complaint
deriving DecidableEq, Repr

def Place.toJson : Place → Json
  | field name => .str name
  | item index => .nat index

def Issue.toJson (i : Issue) : Json :=
  .obj [("loc", .arr (i.place.map Place.toJson)), ("type", .str i.complaint.label),
    ("msg", .str i.complaint.message)]

end Cadence
