import FileChecks.Check.Basic
import FileChecks.Check.Validation
import FileChecks.Script.CacheSteps
import FileChecks.Script.LogSteps
import FileChecks.Script.Session
import FileChecks.Version
import FileChecks.Proofs.Cache.Recency
import FileChecks.Proofs.Cache.Accounting
import FileChecks.Proofs.Cache.Inclusion
import FileChecks.Proofs.Cache.FailedOperations
import FileChecks.Proofs.Compile.Strict
import FileChecks.Proofs.Compile.CacheUse
import FileChecks.Proofs.Glob.Negation
import FileChecks.Proofs.Compile.ApplyConfig
import FileChecks.Proofs.Compile.CacheLifetime
import FileChecks.Proofs.Check.Reading
import FileChecks.Proofs.Check.Regrouping
import FileChecks.Proofs.Check.Conjunction
import FileChecks.Proofs.Check.AffixSpec
import FileChecks.Proofs.Config.Tree
import FileChecks.Proofs.Config.Layers
import FileChecks.Proofs.Config.Update
import FileChecks.Proofs.Config.Loading
import FileChecks.Proofs.Config.Environment
import FileChecks.Proofs.Compile.NamedChecks
import FileChecks.Proofs.Compile.NamedLoading
import FileChecks.Proofs.Log.Blocks
import FileChecks.Proofs.Glob.Literal
import FileChecks.Proofs.Glob.Walk
import FileChecks.Proofs.Glob.PlainName
import FileChecks.Proofs.Glob.SegmentSyntax
