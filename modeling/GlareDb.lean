import GlareDb.Proofs.ExecutorQueue
import GlareDb.Sqlrel.Relational
import GlareDb.Proofs.DropCredentialsCodec
import GlareDb.Proofs.MutationOperators
import GlareDb.Proofs.SltBatches
import GlareDb.Proofs.DropCredentialsMerge
import GlareDb.Proofs.TestJob
import GlareDb.Glaredb.Server
