/-
The part of the configuration syntax tree the routing pipeline reads: the image
of `dae-config/src/ast.rs` and `dae-config/src/dynamic.rs`.

`Param` and `Function` refer to each other in the source (a declaration such as
`filter: name(a) && subtag(b)` keeps its functions inside a parameter), so they
are one mutual block here as well. The routing passes only look at `key` and
`val` of a parameter, but they compare whole outbound functions with the derived
`PartialEq`, and that comparison does walk the nested fields: this is why the
tree is kept whole and why equality on it is decided structurally below.
-/
import Mathlib.Logic.Basic

set_option autoImplicit false

namespace DaeNext.ConfigAst

mutual

/-- `Param`: one `key: value` argument of a function, or a declaration. -/
structure Param where
  key : String
  val : String
  and_functions : List Function
  annotation : List Param

/-- `Function`: a possibly negated name applied to parameters. -/
structure Function where
  name : String
  not : Bool
  params : List Param

end

/-! ## Structural equality

The derived `PartialEq` of the source, as a decision procedure. It recurses
through the two nested lists, so both lists need their own comparison; the
recursion is structural in the left argument, which keeps it evaluable. -/

mutual

def Param.decEq (a b : Param) : Decidable (a = b) :=
  match a, b with
  | ⟨k, v, fs, an⟩, ⟨k', v', fs', an'⟩ =>
    if hk : k = k' then
      if hv : v = v' then
        match Function.listDecEq fs fs', Param.listDecEq an an' with
        | .isTrue hf, .isTrue ha => .isTrue (by rw [hk, hv, hf, ha])
        | .isFalse hf, _ => .isFalse (by intro h; injection h; contradiction)
        | _, .isFalse ha => .isFalse (by intro h; injection h; contradiction)
      else .isFalse (by intro h; injection h; contradiction)
    else .isFalse (by intro h; injection h; contradiction)
termination_by structural a

def Param.listDecEq (a b : List Param) : Decidable (a = b) :=
  match a, b with
  | [], [] => .isTrue rfl
  | [], _ :: _ => .isFalse (by simp)
  | _ :: _, [] => .isFalse (by simp)
  | x :: xs, y :: ys =>
    match Param.decEq x y, Param.listDecEq xs ys with
    | .isTrue hx, .isTrue hxs => .isTrue (by rw [hx, hxs])
    | .isFalse hx, _ => .isFalse (by intro h; injection h; contradiction)
    | _, .isFalse hxs => .isFalse (by intro h; injection h; contradiction)
termination_by structural a

def Function.decEq (a b : Function) : Decidable (a = b) :=
  match a, b with
  | ⟨n, t, ps⟩, ⟨n', t', ps'⟩ =>
    if hn : n = n' then
      if ht : t = t' then
        match Param.listDecEq ps ps' with
        | .isTrue hp => .isTrue (by rw [hn, ht, hp])
        | .isFalse hp => .isFalse (by intro h; injection h; contradiction)
      else .isFalse (by intro h; injection h; contradiction)
    else .isFalse (by intro h; injection h; contradiction)
termination_by structural a

def Function.listDecEq (a b : List Function) : Decidable (a = b) :=
  match a, b with
  | [], [] => .isTrue rfl
  | [], _ :: _ => .isFalse (by simp)
  | _ :: _, [] => .isFalse (by simp)
  | x :: xs, y :: ys =>
    match Function.decEq x y, Function.listDecEq xs ys with
    | .isTrue hx, .isTrue hxs => .isTrue (by rw [hx, hxs])
    | .isFalse hx, _ => .isFalse (by intro h; injection h; contradiction)
    | _, .isFalse hxs => .isFalse (by intro h; injection h; contradiction)
termination_by structural a

end

instance : DecidableEq Param := Param.decEq
instance : DecidableEq Function := Function.decEq

/-! ## Rules and dynamic values -/

/-- A function parameter as `parse_function_param` builds it: no nested
functions, no annotation. -/
def Param.plain (key val : String) : Param := ⟨key, val, [], []⟩

/-- `RoutingRule`: a conjunction of functions and the outbound they select. -/
structure RoutingRule where
  and_functions : List Function
  outbound : Function
  deriving DecidableEq

/-- `DynamicFunctionValue`: how a `fallback:` entry may be written. -/
inductive DynamicFunctionValue where
  | Nil
  | String (name : String)
  | Function (function : Function)
  | FunctionList (functions : List Function)
  deriving DecidableEq

/-! ## Rendering -/

def quote_string (value : String) : String :=
  let escape : Char → List Char
    | '\\' => ['\\', '\\']
    | '"' => ['\\', '"']
    | '\n' => ['\\', 'n']
    | '\r' => ['\\', 'r']
    | '\t' => ['\\', 't']
    | ch => [ch]
  String.ofList ('"' :: value.toList.flatMap escape ++ ['"'])

mutual

def Param.to_config_string (compact quote_val : Bool) : Param → String
  | ⟨key, val, and_functions, _⟩ =>
    let quoted := if quote_val then quote_string val else val
    let colon := if compact then ":" else ": "
    if key.isEmpty then quoted
    else if and_functions.isEmpty then key ++ colon ++ quoted
    else
      key ++ colon ++ String.intercalate (if compact then "&&" else " && ")
        (Function.list_to_config_string compact quote_val and_functions)

def Param.list_to_config_string (compact quote_val : Bool) : List Param → List String
  | [] => []
  | param :: params =>
    param.to_config_string compact quote_val :: Param.list_to_config_string compact quote_val params

/-- `Function::to_config_string`. Inside a parameter the source passes `omit_empty = false`,
so this is the rendering with the brackets always there. -/
def Function.to_config_string (compact quote_val : Bool) : Function → String
  | ⟨name, not, params⟩ =>
    let params := String.intercalate (if compact then "," else ", ")
      (Param.list_to_config_string compact quote_val params)
    (if not then "!" else "") ++ name ++ "(" ++ params ++ ")"

def Function.list_to_config_string (compact quote_val : Bool) : List Function → List String
  | [] => []
  | function :: functions =>
    function.to_config_string compact quote_val
      :: Function.list_to_config_string compact quote_val functions

end

/-- `RoutingRule::to_config_string` with parameters written out. The outbound is
rendered with `omit_empty`: without parameters it is a bare name. -/
def RoutingRule.to_config_string (compact quote_val : Bool) (rule : RoutingRule) : String :=
  let left := String.intercalate (if compact then "&&" else " && ")
    (Function.list_to_config_string compact quote_val rule.and_functions)
  let arrow := if compact then "->" else " -> "
  let outbound :=
    if rule.outbound.params.isEmpty then
      if rule.outbound.not then "!" ++ rule.outbound.name else rule.outbound.name
    else rule.outbound.to_config_string compact quote_val
  left ++ arrow ++ outbound

/-! ## Configurations -/

/-- The parts of `Config` that routing reads. -/
structure Group where
  name : String
  deriving DecidableEq

structure Routing where
  rules : List RoutingRule
  fallback : DynamicFunctionValue
  deriving DecidableEq

structure Config where
  group : List Group
  routing : Routing
  deriving DecidableEq

/-- `dynamic_to_single_function`, shared word for word by the config patch and the
plan builder: a fallback is one function, and a bare name is a function without
parameters. -/
def dynamic_to_single_function : DynamicFunctionValue → Except String Function
  | .String name => .ok { name := name, not := false, params := [] }
  | .Function function => .ok function
  | .FunctionList [function] => .ok function
  | .FunctionList functions =>
    .error s!"expected exactly 1 fallback function, got {functions.length}"
  | .Nil => .error "unsupported fallback type nil"

end DaeNext.ConfigAst
