import EventSystemAudit.PathLib
import EventSystemAudit.RegexMatch
import Mathlib.Data.List.Infix

set_option autoImplicit false

/-!
# `generate_bruno.py`

`create_bruno_collection` walks the operations of a swagger document, path by path and method by
method, and writes one Bruno request per HTTP operation into the folder of its first tag, named
by the method and `sanitize_filename` of its summary (or its path). It records each file in
`created_files` and counts the files of each tag in `folder_stats`. The document is the value
`yaml.safe_load` returns; every `get`, index and iteration on it raises as Python does on a value
of another type.
-/

namespace EventSystemAudit

/-- A value `yaml.safe_load` builds: a scalar (null, boolean, number or string), a sequence, or a
    mapping whose keys are scalars, pairwise unequal, in the document's order. -/
inductive Yaml where
  | scalar (k : PyKey)
  | seq (xs : List Yaml)
  | map (kvs : List (PyKey × Yaml))

namespace Yaml

def str (s : String) : Yaml := .scalar (.str s)

def typeName : Yaml → String
  | .scalar k => k.typeName
  | .seq _ => "list"
  | .map _ => "dict"

/-- `bool(v)`. -/
def truthy : Yaml → Bool
  | .scalar .none => false
  | .scalar (.bool b) => b
  | .scalar (.int i) => i != 0
  | .scalar (.float f) => f.toExt != .fin 0
  | .scalar (.str s) => !s.isEmpty
  | .seq xs => !xs.isEmpty
  | .map kvs => !kvs.isEmpty

def isStr (v : Yaml) (s : String) : Bool :=
  match v with
  | .scalar (.str t) => t == s
  | _ => false

/-- `v.get(key, default)`: the value under the key equal to `key`. -/
def getKey (v : Yaml) (key : PyKey) (default : Yaml) : Except PyException Yaml :=
  match v with
  | .map kvs => .ok ((kvs.find? fun kv => kv.1.eqv key).elim default Prod.snd)
  | _ => .error (.attribute v.typeName "get")

def get (v : Yaml) (key : String) (default : Yaml) : Except PyException Yaml := v.getKey (.str key) default

/-- `v.items()`. -/
def items : Yaml → Except PyException (List (PyKey × Yaml))
  | .map kvs => .ok kvs
  | v => .error (.attribute v.typeName "items")

/-- `v.keys()`. -/
def keys : Yaml → Except PyException (List PyKey)
  | .map kvs => .ok (kvs.map Prod.fst)
  | v => .error (.attribute v.typeName "keys")

/-- `for x in v`: a sequence's items, a mapping's keys, a string's characters. -/
def iter : Yaml → Except PyException (List Yaml)
  | .seq xs => .ok xs
  | .map kvs => .ok (kvs.map fun kv => .scalar kv.1)
  | .scalar (.str s) => .ok (s.toList.map fun c => Yaml.str (String.singleton c))
  | v => .error (.type ("'" ++ v.typeName ++ "' object is not iterable"))

/-- `v[0]`. -/
def index0 : Yaml → Except PyException Yaml
  | .seq (x :: _) => .ok x
  | .seq [] => .error (.index "list index out of range")
  | .scalar (.str s) =>
    match s.toList with
    | c :: _ => .ok (Yaml.str (String.singleton c))
    | [] => .error (.index "string index out of range")
  | .map kvs => ((kvs.find? fun kv => kv.1.eqv (.int 0)).map Prod.snd).elim (.error (.key "0")) .ok
  | v => .error (.type ("'" ++ v.typeName ++ "' object is not subscriptable"))

/-- `needle in v` for a string `needle`. -/
def containsStr (v : Yaml) (needle : String) : Except PyException Bool :=
  match v with
  | .map kvs => .ok (kvs.any fun kv => kv.1.eqv (.str needle))
  | .seq xs => .ok (xs.any fun x => x.isStr needle)
  | .scalar (.str s) => .ok (decide (List.IsInfix needle.toList s.toList))
  | v => .error (.type ("argument of type '" ++ v.typeName ++ "' is not iterable"))

mutual
/-- `a == b` for values built from distinct nodes: numbers by value, `nan` unequal to itself,
    mappings whatever the order of their keys. -/
def pyEq : Yaml → Yaml → Bool
  | .scalar a, .scalar b => a.eqv b && a.norm != .num .nan
  | .seq xs, .seq ys => seqEq xs ys
  | .map a, .map b => a.length == b.length && mapIncl a b
  | _, _ => false

def seqEq : List Yaml → List Yaml → Bool
  | [], [] => true
  | x :: xs, y :: ys => pyEq x y && seqEq xs ys
  | _, _ => false

def mapIncl : List (PyKey × Yaml) → List (PyKey × Yaml) → Bool
  | [], _ => true
  | (k, v) :: kvs, b =>
    (match b.find? (·.1.eqv k) with
      | some kv => pyEq v kv.2
      | none => false) && mapIncl kvs b
end

end Yaml

/-! ## `str` and `repr` -/

section
variable (rt : Runtime)

/-- `str(n)`: `ValueError` beyond the interpreter's limit of digits. -/
def intStr (n : ℤ) : Except PyException String :=
  if 0 < rt.intMaxStrDigits ∧ rt.intMaxStrDigits < (toString n.natAbs).length then
    .error (.value ("Exceeds the limit (" ++ toString rt.intMaxStrDigits ++
      " digits) for integer string conversion; use sys.set_int_max_str_digits() to increase the limit"))
  else .ok (toString n)

/-- `str(k)` of a scalar. -/
def keyStr : PyKey → Except PyException String
  | .str s => .ok s
  | .int n => intStr rt n
  | k => .ok k.toStr

/-- `repr(k)` of a scalar. -/
def keyRepr : PyKey → Except PyException String
  | .str s => .ok (String.mk (reprStr rt s.toList))
  | k => keyStr rt k

mutual
/-- `repr(v)`. -/
def Yaml.repr : Yaml → Except PyException String
  | .scalar k => keyRepr rt k
  | .seq xs => return "[" ++ ", ".intercalate (← reprSeq xs) ++ "]"
  | .map kvs => return "\x7b" ++ ", ".intercalate (← reprMap kvs) ++ "\x7d"

def reprSeq : List Yaml → Except PyException (List String)
  | [] => .ok []
  | x :: xs => return (← x.repr) :: (← reprSeq xs)

def reprMap : List (PyKey × Yaml) → Except PyException (List String)
  | [] => .ok []
  | (k, v) :: kvs => return ((← keyRepr rt k) ++ ": " ++ (← v.repr)) :: (← reprMap kvs)
end

/-- `str(v)`, what an f-string writes. -/
def Yaml.toStr : Yaml → Except PyException String
  | .scalar k => keyStr rt k
  | v => v.repr rt

end

/-! ## `sanitize_filename` -/

/-- The characters `[^a-zA-Z0-9\s\-_]` does not match, which the first substitution keeps. -/
def keptInFilename (c : Char) : Bool :=
  ('a' ≤ c && c ≤ 'z') || ('A' ≤ c && c ≤ 'Z') || ('0' ≤ c && c ≤ '9') || isSpace c || c == '-' || c == '_'

/-- `re.sub(r'[\s/]+', '-', s)`: each maximal run of whitespace and slashes becomes one hyphen;
    `inRun` after a character of a run. -/
def hyphenateRuns : Bool → List Char → List Char
  | _, [] => []
  | inRun, c :: cs =>
    if isSpace c || c == '/' then (if inRun then [] else ['-']) ++ hyphenateRuns true cs
    else c :: hyphenateRuns false cs

/-- `s.strip(c)`. -/
def stripChar (c : Char) (s : List Char) : List Char :=
  ((s.dropWhile (· = c)).reverse.dropWhile (· = c)).reverse

/-- `sanitize_filename(name)`. -/
def sanitizeFilename (rt : Runtime) (name : List Char) : List Char :=
  lower rt (stripChar '-' (hyphenateRuns false (name.filter keptInFilename)))

/-! ## `generate_bru_content` -/

/-- `\{([^}]+)\}`. -/
def paramPattern : List Item := lit "\x7b" ++ group (.plus (· != '\x7d')) ++ lit "\x7d"

/-- `extract_path_params(path)`. -/
def extractPathParams (path : List Char) : List (List Char) :=
  (findAll paramPattern path).map fun m => (m.groups.getD 0 "").toList

/-- The URL: each `{param}` of the path becomes `{{var:param}}`, one parameter after another. -/
def substituteParams (path : List Char) : List Char :=
  (extractPathParams path).foldl
    (fun url p => replaceText ('\x7b' :: p ++ ['\x7d']) ("\x7b\x7bvar:".toList ++ p ++ "\x7d\x7d".toList) url) path

/-- A value `re` takes as its subject: a string; anything else is a `TypeError`. -/
def reSubject : Yaml → Except PyException String
  | .scalar (.str s) => .ok s
  | v => .error (.type ("expected string or bytes-like object, got '" ++ v.typeName ++ "'"))

/-- The HTTP methods the collection takes. -/
def httpMethods : List String := ["get", "post", "put", "patch", "delete", "head", "options"]

section
variable (rt : Runtime)

/-- One line of the `params:query` block. -/
def queryParamLine (param : Yaml) : Except PyException String := do
  let name ← param.get "name" (.str "")
  let _description ← param.get "description" (.str "")
  let default ← param.get "default" (.str "")
  let required := if (← param.get "required" (.scalar (.bool false))).truthy then "" else "~"
  if default.truthy then
    return "  " ++ required ++ (← name.toStr rt) ++ ": " ++ (← default.toStr rt) ++ "\n"
  else return "  " ++ required ++ (← name.toStr rt) ++ ": \n"

/-- The `params:query` block of the parameters that are `in: query`. -/
def queryParamsBlock (parameters : Yaml) : Except PyException String := do
  let params ← parameters.iter
  let query ← params.filterM fun p => return (← p.get "in" (.scalar .none)).isStr "query"
  if query.isEmpty then return ""
  return "\nparams:query \x7b\n" ++ String.join (← query.mapM (queryParamLine rt)) ++ "\x7d\n"

/-- One line of the `headers` block. -/
def securityLine (sec : Yaml) : Except PyException String := do
  if ← sec.containsStr "ServerToken" then return "  X-Server-Token: \x7b\x7bvar:server_token\x7d\x7d\n"
  else if ← sec.containsStr "BearerAuth" then
    return "  Authorization: Bearer \x7b\x7bvar:bearer_token\x7d\x7d\n"
  else return ""

def headersBlock (security : Yaml) : Except PyException String := do
  if !security.truthy then return ""
  return "\nheaders \x7b\n" ++ String.join (← (← security.iter).mapM securityLine) ++ "\x7d\n"

/-- The request so far with the `body:json` block of a `post`, `put` or `patch` with a body. -/
def bodyBlock (method : String) (requestBody : Yaml) (bru : String) : Except PyException String := do
  if !(requestBody.truthy && ["post", "put", "patch"].contains (String.mk (lower rt method.toList))) then
    return bru
  let contentType ← if (← requestBody.get "content" (.scalar .none)).truthy then
      do pure (Yaml.scalar ((← (← requestBody.get "content" (.map [])).keys).headD .none))
    else pure (Yaml.str "application/json")
  let bru := String.mk (replaceText "body: none".toList "body: json".toList bru.toList) ++ "\nbody:json \x7b\n"
  if ← contentType.containsStr "application/json" then
    let content ← requestBody.get "content" (.map [])
    let media ← content.getKey (match contentType with | .scalar k => k | _ => .none) (.map [])
    let _schema ← media.get "schema" (.map [])
    return bru ++ "  \x7b\n    // Add request body here\n  \x7d\n\x7d\n"
  return bru ++ "\x7d\n"

/-- The `docs` block. -/
def docsBlock (summary description responses : Yaml) : Except PyException String := do
  if !(description.truthy || summary.truthy) then return ""
  let title ← if summary.truthy then pure ("  # " ++ (← summary.toStr rt) ++ "\n  \n") else pure ""
  let text ← if description.truthy && !description.pyEq summary then
      pure ("  " ++ (← description.toStr rt) ++ "\n  \n")
    else pure ""
  let responseLines ← if responses.truthy then do
      let lines ← (← responses.items).mapM fun (code, resp) => do
        let desc ← resp.get "description" (.scalar code)
        return "  - **" ++ (← keyStr rt code) ++ "**: " ++ (← desc.toStr rt) ++ "\n"
      pure ("  ## Responses\n  \n" ++ String.join lines)
    else pure ""
  return "\ndocs \x7b\n" ++ title ++ text ++ responseLines ++ "\x7d\n"

def collectionTestsBlock : String :=
  "\ntests \x7b\n  test(\"Status code is 2xx\", function() \x7b\n    expect(res.status).to.be.within(200, 299);\n  \x7d);\n\x7d\n"

/-- `generate_bru_content(...)`. -/
def generateBruContent (method : String) (path : PyKey) (summary description parameters security requestBody
    responses : Yaml) : Except PyException String := do
  let pathText ← reSubject (.scalar path)
  let url := substituteParams pathText.toList
  let name ← (if summary.truthy then summary else .scalar path).toStr rt
  let bru := "meta \x7b\n  name: " ++ name ++ "\n  type: http\n  seq: 1\n\x7d\n\n" ++
    String.mk (lower rt method.toList) ++ " \x7b\n  url: \x7b\x7bbase_url\x7d\x7d" ++ String.mk url ++
    "\n  body: none\n  auth: none\n\x7d\n"
  let bru := bru ++ (← queryParamsBlock rt parameters)
  let bru := bru ++ (← headersBlock security)
  let bru ← bodyBlock rt method requestBody bru
  let bru := bru ++ (← docsBlock rt summary description responses)
  return bru ++ collectionTestsBlock

end

/-! ## `create_bruno_collection` -/

/-- What a run of `create_bruno_collection` builds: the file system, `created_files` and
    `folder_stats`. -/
structure CollectionRun where
  fs : FileSystem
  createdFiles : List String
  folderStats : List (String × ℕ)

/-- The operand of `output_path / tag`: a string; anything else is a `TypeError`. -/
def pathOperand : Yaml → Except PyException String
  | .scalar (.str s) => .ok s
  | v => .error (.type ("unsupported operand type(s) for /: 'PosixPath' and '" ++ v.typeName ++ "'"))

section
variable (rt : Runtime)

/-- `f"{method.upper()} {sanitize_filename(summary or path)}.bru"`. -/
def requestFileName (method : String) (name : String) : String :=
  String.mk (upper rt method.toList) ++ " " ++ String.mk (sanitizeFilename rt name.toList) ++ ".bru"

/-- The body of the inner loop for one HTTP operation. -/
def processOperation (out : PosixPath) (path : PyKey) (method : String) (spec : Yaml) (run : CollectionRun) :
    Except PyException CollectionRun := do
  let tags ← spec.get "tags" (.seq [.str "Uncategorized"])
  let tag ← if tags.truthy then tags.index0 else pure (.str "Uncategorized")
  let summary ← spec.get "summary" (.scalar path)
  let description ← spec.get "description" (.str "")
  let parameters ← spec.get "parameters" (.seq [])
  let security ← spec.get "security" (.seq [])
  let requestBody ← spec.get "requestBody" (.map [])
  let responses ← spec.get "responses" (.map [])
  let tagText ← pathOperand tag
  let folder := out.join tagText
  let fs ← run.fs.mkdir rt folder
  let name ← reSubject (if summary.truthy then summary else .scalar path)
  let filePath := folder.join (requestFileName rt method name)
  let content ← generateBruContent rt method path summary description parameters security requestBody responses
  let fs ← fs.write rt filePath content
  let rel ← filePath.relativeTo rt out
  return ⟨fs, run.createdFiles ++ [rel.str],
    dictSet run.folderStats tagText (((run.folderStats.lookup tagText).getD 0) + 1)⟩

/-- The inner loop: a method that is not an HTTP method is skipped; one that is not a string has no
    `lower`. -/
def processMethod (out : PosixPath) (path : PyKey) (run : CollectionRun) (entry : PyKey × Yaml) :
    Except PyException CollectionRun :=
  match entry.1 with
  | .str method =>
    if httpMethods.contains (String.mk (lower rt method.toList)) then processOperation rt out path method entry.2 run
    else .ok run
  | k => .error (.attribute k.typeName "lower")

/-- The outer loop over the paths. -/
def processPath (out : PosixPath) (run : CollectionRun) (entry : PyKey × Yaml) :
    Except PyException CollectionRun := do
  (← entry.2.items).foldlM (processMethod rt out entry.1) run

/-- `create_bruno_collection(swagger_path, output_dir)` on the loaded document `swagger`, in the
    file system `fs`. -/
def createBrunoCollection (swagger : Yaml) (outputDir : String) (fs : FileSystem) :
    Except PyException CollectionRun := do
  let _basePath ← swagger.get "basePath" (.str "")
  let paths ← swagger.get "paths" (.map [])
  let out := PosixPath.parse outputDir
  let fs ← fs.mkdirParents rt out
  (← paths.items).foldlM (processPath rt out) ⟨fs, [], []⟩

end

end EventSystemAudit
