/-
Akumuli.Query.Where — the where-clause resolver of `queryparser.cpp`:
`SeriesRetreiver` (`add_tag`, `add_tags`, `extract_ids`) and
`parse_where_clause`.

`extract_ids` builds a pattern text from the first metric and the tag
filters and lets `SeriesMatcher::regex_match` select the series. The metric,
keys and values are spliced in unescaped, exactly as the stream operators
write them. The tag filters sit in a `std::map`, so the pattern lists them
in key order (bytewise, as `std::string` compares). For every
further metric of a join, each selected name is cut after as many bytes as
the first metric has, and the new metric is put in front of the rest.

`parse_where_clause` ignores the statuses of `add_tag` and `add_tags`: a
key that repeats is not added a second time, and the query goes on.
-/
import Akumuli.Query.Statements
import Mathlib.Data.List.Sort

namespace Akumuli.QP

/-! ## The pattern texts -/

/-- Any number of tags, the text `extract_ids` writes after the metric. -/
def anyTagsPattern : String := "(?:\\s[\\w\\.\\-]+=[\\w\\.\\-]+)*"

/-- One value of a tag filter: any tags, the tag `key=val`, any tags. -/
def valuePattern (key val : String) : String :=
  anyTagsPattern ++ "\\s" ++ key ++ "=" ++ val ++ anyTagsPattern

/-- The values of a tag filter separated by `|` (the loop with its `first`
flag). -/
def valuesPattern (key : String) : List String → String
  | [] => ""
  | [v] => valuePattern key v
  | v :: vs => valuePattern key v ++ "|" ++ valuesPattern key vs

/-- One tag filter, a non-capturing group of its values. -/
def tagFilterPattern (key : String) (vals : List String) : String :=
  "(?:" ++ valuesPattern key vals ++ ")"

/-- The pattern of a metric with tag filters, in the order given. -/
def metricTagsPattern (metric : String) (tags : List (String × List String)) : String :=
  tags.foldl (fun acc kv => acc ++ tagFilterPattern kv.1 kv.2) metric

/-- `s.substr(pos)`, and the `std::string(name.first + pos, name.first +
name.second)` of `extract_ids`: the bytes from `pos` on. -/
def substr (s : String) (pos : Nat) : String := ⟨s.data.drop pos⟩

/-! ## `SeriesRetreiver` -/

/-- The order of `std::map<std::string, ...>`: by key, bytewise. -/
def keyLE (a b : String × List String) : Prop := strLE a.1 b.1

instance : DecidableRel keyLE := fun a b => inferInstanceAs (Decidable (strLE a.1 b.1))

instance : IsTotal (String × List String) keyLE := ⟨fun a b => strLE_total a.1 b.1⟩

instance : IsTrans (String × List String) keyLE := ⟨fun _ _ _ => strLE_trans⟩

/-- `SeriesRetreiver`: the metrics, and the tag filters in key order. -/
structure SeriesRetreiver where
  metric : List String
  tags : List (String × List String)
  deriving DecidableEq, Repr

namespace SeriesRetreiver

/-- `add_tags(name, values)`: refused without a metric or for a key already
present. -/
def addTags (r : SeriesRetreiver) (name : String) (values : List String) :
    Status × SeriesRetreiver :=
  if r.metric.isEmpty then (.ebadArg, r)
  else if r.tags.any (·.1 = name) then (.ebadArg, r)
  else (.success, { r with tags := r.tags.orderedInsert keyLE (name, values) })

/-- `add_tag(name, value)`: `add_tags` with the one value. -/
def addTag (r : SeriesRetreiver) (name value : String) : Status × SeriesRetreiver :=
  r.addTags name [value]

/-- The second half of `extract_ids` for a join: for each further metric and
each selected id, the id of that metric followed by the id's name cut after
`|firstMetric|` bytes. -/
def altIds (matcher : SeriesMatcher) (firstMetric : String) (ids : List Nat)
    (tail : List String) : Except Fault (List Nat) :=
  List.flatten <$> tail.mapM fun metric => ids.mapM fun id =>
    match matcher.id2str id with
    | none => .error (.panic "Matcher data is broken")
    | some name => .ok (matcher.match' (metric ++ substr name firstMetric.length))

/-- `extract_ids(matcher)`. -/
def extractIds (r : SeriesRetreiver) (matcher : SeriesMatcher) :
    Except Fault (Status × List Nat) :=
  match r.metric with
  | [] => .ok (.success, matcher.getAllIds)
  | firstMetric :: tail => do
    let expression :=
      if r.tags.isEmpty then firstMetric ++ anyTagsPattern else metricTagsPattern firstMetric r.tags
    let results ← match matcher.regexMatch expression with
      | none => throw .regexError
      | some results => pure results
    let ids := results.map (·.id)
    if tail.isEmpty then return (.success, ids)
    return (.success, ids ++ (← altIds matcher firstMetric ids tail))

end SeriesRetreiver

/-- The loop of `parse_where_clause` over the entries of `where`: a list
of values or a single one; the statuses are dropped. -/
def addWhereItem (r : SeriesRetreiver) (item : String × PTree) : SeriesRetreiver :=
  if !item.2.empty then (r.addTags item.1 (item.2.children.map (·.2.data))).2
  else (r.addTag item.1 item.2.data).2

/-- `parse_where_clause(ptree, metrics, matcher)`. -/
def parseWhereClause (ptree : PTree) (metrics : List String) (matcher : SeriesMatcher) :
    Except Fault (Status × List Nat) :=
  match ptree.getChildOptional "where" with
  | some whereTree =>
    if metrics.isEmpty then .ok (.equeryParsingError, [])
    else (whereTree.children.foldl addWhereItem ⟨metrics, []⟩).extractIds matcher
  | none =>
    if !metrics.isEmpty then (SeriesRetreiver.mk metrics []).extractIds matcher
    else (SeriesRetreiver.mk [] []).extractIds matcher

end Akumuli.QP
