import Dvt.Tasks.Coalescing
import Dvt.Tasks.Dispatch
import Dvt.Tasks.Worker
import Dvt.Tasks.Waiting
import Dvt.Orchestrator.Survival
import Dvt.Pipelines.Freshness
import Dvt.Caching.Restoration
import Dvt.Kafka.Slots
import Dvt.Kafka.Commit
import Dvt.Inputs.Agreement
import Dvt.Inputs.Fingerprints
import Dvt.SqlTemplate.NonInterference
import Dvt.Folders.Forest
import Dvt.Scheduling.Overlap
import Dvt.Pipelines.Seeds
import Dvt.Projects.Equivalence
import Dvt.Execution.Outcome
import Dvt.Execution.Once
import Dvt.Execution.Availability
import Dvt.Execution.Variables
import Dvt.ServiceFiles.Rename
import Dvt.ServiceFiles.Deletion
import Dvt.Extensions.Safety
import Dvt.Extensions.Install
import Dvt.Writes.Results
import Dvt.Parquet.Exactness
import Dvt.Mcp.Agreement
import Dvt.SqlPolicy.Validation
import Dvt.Settings.Freshness
import Dvt.ObjectStorage.Moves
import Dvt.Pipelines.Links
import Dvt.Writes.Resolution
import Dvt.Caching.Capacity
import Dvt.Caching.Pagination
import Dvt.Caching.IndexKeys
import Dvt.Installation.EnvFile
import Dvt.Json.Tabular
import Dvt.Catalog.Paging
import Dvt.Catalog.Preview
