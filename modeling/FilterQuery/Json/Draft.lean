import FilterQuery.Json.Token

/-!
Drafts: what a text that is meant to be JSON amounts to as far as it goes. A draft is a value whose
parts are kept up to the place where the text breaks, so that what is wrong with the text can be
told from what the value was meant to be.
-/
namespace FilterQuery.Json

open Decimal

/-- A value as far as it could be read. The first four stand for values that were not: where the
text ends, where it holds something else, and where it ends in the middle of a word or number.
Keys are drafts as well, since a text may hold any value in place of a key. -/
inductive Draft where
  | missing
  | stray
  | cutWord
  | cutNumber
  | null
  | bool (b : Bool)
  | number (l : Literal)
  | string (q : Quoted)
  | array (items : List Draft) (closing : Closing)
  | object (members : List (Draft × Draft)) (closing : Closing)

/-- An array or object that is not closed yet. The items and members so far stand in reverse order;
the value of the last key is yet to come. -/
inductive Frame where
  | array (done : List Draft)
  | object (done : List (Draft × Draft)) (key : Draft)

/-- A text as far as it could be read: a value, and how the text ends after it. -/
structure Document where
  root : Draft
  closing : Closing

/-- What is due next in a text, with the arrays and objects around it. -/
inductive Reading where
  | value (outer : List Frame)
  | firstItem (outer : List Frame)
  | firstKey (outer : List Frame)
  | key (done : List (Draft × Draft)) (outer : List Frame)
  | colon (done : List (Draft × Draft)) (key : Draft) (outer : List Frame)
  | after (value : Draft) (outer : List Frame)
  | stopped (document : Document)

/-- The array or object of a frame, ended in the given way after a value. -/
def Frame.close (value : Draft) (closing : Closing) : Frame → Draft
  | array done => .array (value :: done).reverse closing
  | object done key => .object ((key, value) :: done).reverse closing

/-- The value with the arrays and objects around it, none of them closed. -/
def enclose (value : Draft) : List Frame → Draft
  | [] => value
  | frame :: outer => enclose (frame.close value .cut) outer

namespace Reading

/-- Nothing more is read after a value, as the text breaks there. -/
def breakAt (value : Draft) (outer : List Frame) : Reading := stopped ⟨enclose value outer, .cut⟩

/-- A token where a value is due. -/
def stepValue (outer : List Frame) : Token → Reading
  | .openArray => firstItem outer
  | .openObject => firstKey outer
  | .null => after .null outer
  | .bool b => after (.bool b) outer
  | .number l => after (.number l) outer
  | .string q => if q.closing = .closed then after (.string q) outer else breakAt (.string q) outer
  | .cutWord => breakAt .cutWord outer
  | .cutNumber => breakAt .cutNumber outer
  | .closeArray | .closeObject | .comma | .colon | .stray => breakAt .stray outer

/-- What a token in place of a key was meant to be. -/
def keyDraft : Token → Draft
  | .openArray => .array [] .spoiled
  | .openObject => .object [] .spoiled
  | .null => .null
  | .bool b => .bool b
  | .number l => .number l
  | .string q => .string q
  | .cutWord => .cutWord
  | .cutNumber => .cutNumber
  | .closeArray | .closeObject | .comma | .colon | .stray => .stray

/-- A token where a key is due. -/
def stepKey (done : List (Draft × Draft)) (outer : List Frame) (token : Token) : Reading :=
  match token with
  | .string ⟨pieces, .closed⟩ => colon done (.string ⟨pieces, .closed⟩) outer
  | _ => breakAt (.object ((keyDraft token, .stray) :: done).reverse .spoiled) outer

/-- A token after a value. -/
def stepAfter (value : Draft) (outer : List Frame) (token : Token) : Reading :=
  match outer, token with
  | [], _ => stopped ⟨value, .spoiled⟩
  | .array done :: outer, .comma => .value (.array (value :: done) :: outer)
  | .object done k :: outer, .comma => key ((k, value) :: done) outer
  | .array done :: outer, .closeArray => after ((Frame.array done).close value .closed) outer
  | .object done k :: outer, .closeObject => after ((Frame.object done k).close value .closed) outer
  | frame :: outer, _ => breakAt (frame.close value .spoiled) outer

/-- The next token of a text. -/
def step (reading : Reading) (token : Token) : Reading :=
  match reading with
  | value outer => stepValue outer token
  | firstItem outer =>
    if token = .closeArray then after (.array [] .closed) outer
    else stepValue (.array [] :: outer) token
  | firstKey outer =>
    if token = .closeObject then after (.object [] .closed) outer else stepKey [] outer token
  | key done outer => stepKey done outer token
  | colon done k outer =>
    if token = .colon then value (.object done k :: outer)
    else breakAt .stray (.object done k :: outer)
  | after v outer => stepAfter v outer token
  | stopped document => stopped document

def finish : Reading → Document
  | value outer => ⟨enclose .missing outer, .cut⟩
  | firstItem outer => ⟨enclose (.array [] .cut) outer, .cut⟩
  | firstKey outer => ⟨enclose (.object [] .cut) outer, .cut⟩
  | key done outer => ⟨enclose (.object ((.missing, .missing) :: done).reverse .cut) outer, .cut⟩
  | colon done k outer => ⟨enclose .missing (.object done k :: outer), .cut⟩
  | after v outer => ⟨enclose v outer, if outer.isEmpty then .closed else .cut⟩
  | stopped document => document

end Reading

def readDocument (cs : List Char) : Document :=
  ((tokens cs).foldl Reading.step (.value [])).finish

end FilterQuery.Json
