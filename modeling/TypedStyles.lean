import TypedStyles.Main
import TypedStyles.Proofs.SourceMap.Canonical
import TypedStyles.Proofs.Stylesheet.Normalization
import TypedStyles.Proofs.Declaration.EndToEnd
import TypedStyles.Proofs.Declaration.Names
import TypedStyles.Proofs.Declaration.Failure
import TypedStyles.Proofs.Json.Reading
import TypedStyles.Proofs.Json.Numbers
import TypedStyles.Proofs.Json.RoundTrip
import TypedStyles.Proofs.Json.Records
import TypedStyles.Proofs.SourceMap.Interchange
import TypedStyles.Proofs.Stylesheet.Interchange
import TypedStyles.Proofs.Declaration.Options
import TypedStyles.Proofs.Declaration.Delivery
import TypedStyles.Proofs.Declaration.Policies
import TypedStyles.Proofs.CommandLine.FileTree
import TypedStyles.Proofs.CommandLine.Run
import TypedStyles.Proofs.SourceMap.PrefixSums
import TypedStyles.Proofs.SourceMap.Acceptance
import TypedStyles.Proofs.Declaration.SourceFile
import TypedStyles.Proofs.SourceMap.LinearScan
import TypedStyles.Proofs.Declaration.Recording
import TypedStyles.Proofs.Stylesheet.Faults
import TypedStyles.Proofs.Stylesheet.Idempotence
import TypedStyles.Proofs.SourceMap.Spelling
import TypedStyles.Proofs.Declaration.Writer
import TypedStyles.Proofs.Declaration.Reference
