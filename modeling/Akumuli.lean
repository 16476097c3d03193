import Akumuli.Core
import Akumuli.Pipeline.RandomSampling
import Akumuli.Pipeline.RandomSamplingTheorems
import Akumuli.Pipeline.GroupBy
import Akumuli.Pipeline.ScanProcessor
import Akumuli.Pipeline.Paa
import Akumuli.Regex.Syntax
import Akumuli.Regex.Match
import Akumuli.Regex.Compile
import Akumuli.Catalog
import Akumuli.Query.RegexFilter
import Akumuli.PropertyTree
import Akumuli.Query.Statements
import Akumuli.Query.Where
import Akumuli.Query.WherePatterns
import Akumuli.Query.TagLanguage
import Akumuli.Query.WhereClause
import Akumuli.Query.Plan
import Akumuli.Query.Parser
import Akumuli.Query.ParserSpec
import Akumuli.Query.SpecEnv
import Akumuli.Query.PlanTable
import Akumuli.Query.Join
import Akumuli.Query.DisplayNames
import Akumuli.Query.LegacyBuilder
import Akumuli.Query.Topology
import Akumuli.Query.GroupAggregateSpec
import Akumuli.Pipeline.PaaCounters
import Akumuli.Query.LegacyWhere
import Akumuli.Pipeline.Driver
import Akumuli.Query.MetaQuery
import Akumuli.Query.BuilderErrors
