import CurriedTypings.Tables

/-!
# The built-in tables

The functions, aliases, spread arguments and callbacks of `lodash/fp`, used when
no metadata is given. Aliases of functions that are not capped to an arity (`head`,
`flatten`, `constant`, …) are listed too, although nothing comes of them.
-/

namespace CurriedTypings.Builtin

/-- Functions capped to one argument. -/
def unary : List String :=
  ["assignAll", "assignInAll", "attempt", "castArray", "ceil", "create", "curry",
    "curryRight", "defaultsAll", "defaultsDeepAll", "floor", "flow", "flowRight", "fromPairs",
    "invert", "iteratee", "memoize", "method", "mergeAll", "methodOf", "mixin", "nthArg",
    "over", "overEvery", "overSome", "rest", "reverse", "round", "runInContext", "spread",
    "template", "trim", "trimEnd", "trimStart", "uniqueId", "words", "zipAll"]

def binary : List String :=
  ["add", "after", "ary", "assign", "assignAllWith", "assignIn", "assignInAllWith", "at",
    "before", "bind", "bindAll", "bindKey", "chunk", "cloneDeepWith", "cloneWith", "concat",
    "conformsTo", "countBy", "curryN", "curryRightN", "debounce", "defaults", "defaultsDeep",
    "defaultTo", "delay", "difference", "divide", "drop", "dropRight", "dropRightWhile",
    "dropWhile", "endsWith", "eq", "every", "filter", "find", "findIndex", "findKey",
    "findLast", "findLastIndex", "findLastKey", "flatMap", "flatMapDeep", "flattenDepth",
    "forEach", "forEachRight", "forIn", "forInRight", "forOwn", "forOwnRight", "get",
    "groupBy", "gt", "gte", "has", "hasIn", "includes", "indexOf", "intersection", "invertBy",
    "invoke", "invokeMap", "isEqual", "isMatch", "join", "keyBy", "lastIndexOf", "lt", "lte",
    "map", "mapKeys", "mapValues", "matchesProperty", "maxBy", "meanBy", "merge",
    "mergeAllWith", "minBy", "multiply", "nth", "omit", "omitBy", "overArgs", "pad", "padEnd",
    "padStart", "parseInt", "partial", "partialRight", "partition", "pick", "pickBy",
    "propertyOf", "pull", "pullAll", "pullAt", "random", "range", "rangeRight", "rearg",
    "reject", "remove", "repeat", "restFrom", "result", "sampleSize", "some", "sortBy",
    "sortedIndex", "sortedIndexOf", "sortedLastIndex", "sortedLastIndexOf", "sortedUniqBy",
    "split", "spreadFrom", "startsWith", "subtract", "sumBy", "take", "takeRight",
    "takeRightWhile", "takeWhile", "tap", "throttle", "thru", "times", "trimChars",
    "trimCharsEnd", "trimCharsStart", "truncate", "union", "uniqBy", "uniqWith", "unset",
    "unzipWith", "without", "wrap", "xor", "zip", "zipObject", "zipObjectDeep"]

def ternary : List String :=
  ["assignInWith", "assignWith", "clamp", "differenceBy", "differenceWith", "findFrom",
    "findIndexFrom", "findLastFrom", "findLastIndexFrom", "getOr", "includesFrom",
    "indexOfFrom", "inRange", "intersectionBy", "intersectionWith", "invokeArgs",
    "invokeArgsMap", "isEqualWith", "isMatchWith", "flatMapDepth", "lastIndexOfFrom",
    "mergeWith", "orderBy", "padChars", "padCharsEnd", "padCharsStart", "pullAllBy",
    "pullAllWith", "rangeStep", "rangeStepRight", "reduce", "reduceRight", "replace", "set",
    "slice", "sortedIndexBy", "sortedLastIndexBy", "transform", "unionBy", "unionWith",
    "update", "xorBy", "xorWith", "zipWith"]

def quaternary : List String :=
  ["fill", "setWith", "updateWith"]

def targetOf : Table String :=
  [("each", "forEach"), ("eachRight", "forEachRight"), ("entries", "toPairs"),
    ("entriesIn", "toPairsIn"), ("extend", "assignIn"), ("extendAll", "assignInAll"),
    ("extendAllWith", "assignInAllWith"), ("extendWith", "assignInWith"), ("first", "head"),
    ("conforms", "conformsTo"), ("matches", "isMatch"), ("property", "get"),
    ("__", "placeholder"), ("F", "stubFalse"), ("T", "stubTrue"), ("all", "every"),
    ("allPass", "overEvery"), ("always", "constant"), ("any", "some"), ("anyPass", "overSome"),
    ("apply", "spread"), ("assoc", "set"), ("assocPath", "set"), ("complement", "negate"),
    ("compose", "flowRight"), ("contains", "includes"), ("dissoc", "unset"),
    ("dissocPath", "unset"), ("dropLast", "dropRight"), ("dropLastWhile", "dropRightWhile"),
    ("equals", "isEqual"), ("identical", "eq"), ("indexBy", "keyBy"), ("init", "initial"),
    ("invertObj", "invert"), ("juxt", "over"), ("omitAll", "omit"), ("nAry", "ary"),
    ("path", "get"), ("pathEq", "matchesProperty"), ("pathOr", "getOr"), ("paths", "at"),
    ("pickAll", "pick"), ("pipe", "flow"), ("pluck", "map"), ("prop", "get"),
    ("propEq", "matchesProperty"), ("propOr", "getOr"), ("props", "at"),
    ("symmetricDifference", "xor"), ("symmetricDifferenceBy", "xorBy"),
    ("symmetricDifferenceWith", "xorWith"), ("takeLast", "takeRight"),
    ("takeLastWhile", "takeRightWhile"), ("unapply", "rest"), ("unnest", "flatten"),
    ("useWith", "overArgs"), ("where", "conformsTo"), ("whereEq", "isMatch"),
    ("zipObj", "zipObject")]

/-- Functions that collect trailing arguments, and from which one on. -/
def spreadStarts : Table Nat :=
  [("assignAll", 0), ("assignAllWith", 0), ("assignInAll", 0), ("assignInAllWith", 0),
    ("defaultsAll", 0), ("defaultsDeepAll", 0), ("invokeArgs", 2), ("invokeArgsMap", 2),
    ("mergeAll", 0), ("mergeAllWith", 0), ("partial", 1), ("partialRight", 1), ("without", 1),
    ("zipAll", 0)]

/-- Functions that take a callback, and the number of its arguments. -/
def iterateeArities : Table Nat :=
  [("dropRightWhile", 1), ("dropWhile", 1), ("every", 1), ("filter", 1), ("find", 1),
    ("findFrom", 1), ("findIndex", 1), ("findIndexFrom", 1), ("findKey", 1), ("findLast", 1),
    ("findLastFrom", 1), ("findLastIndex", 1), ("findLastIndexFrom", 1), ("findLastKey", 1),
    ("flatMap", 1), ("flatMapDeep", 1), ("flatMapDepth", 1), ("forEach", 1),
    ("forEachRight", 1), ("forIn", 1), ("forInRight", 1), ("forOwn", 1), ("forOwnRight", 1),
    ("map", 1), ("mapKeys", 1), ("mapValues", 1), ("partition", 1), ("reduce", 2),
    ("reduceRight", 2), ("reject", 1), ("remove", 1), ("some", 1), ("takeRightWhile", 1),
    ("takeWhile", 1), ("times", 1), ("transform", 2)]

def tables : Tables where
  groups := [("1", unary), ("2", binary), ("3", ternary), ("4", quaternary)]
  targetOf := targetOf
  spreads := spreadStarts.map fun (name, start) => (name, { start })
  iterateeArities := iterateeArities

def store : Except MetadataError Store := Store.ofTables tables

end CurriedTypings.Builtin
